import BugReport.Main
import BugReport.Proofs.Filter.Clean
import BugReport.Proofs.Filter.Numbering
import BugReport.Proofs.Parameter.Clean
import BugReport.Proofs.Parameter.Store
import BugReport.Proofs.Query.Binding
import BugReport.Proofs.Query.Clean
import BugReport.Proofs.Query.Fragments
import BugReport.Proofs.Query.Growth
import BugReport.Proofs.Query.Order
import BugReport.Proofs.Query.Safety
import BugReport.Proofs.Query.Slots
import BugReport.Proofs.Sql.Display
import BugReport.Proofs.Sql.Fragment
import BugReport.Proofs.Sql.OrderClause
import BugReport.Proofs.Sql.Reading
import BugReport.Proofs.Sql.Regular
import BugReport.Proofs.Sql.Slots
import BugReport.Proofs.Sql.StatementText
import BugReport.Proofs.Text.Parts
import BugReport.Proofs.Query.Scope
import BugReport.Proofs.Query.CustomFields
import BugReport.Proofs.Query.SortScope
import BugReport.Proofs.Report.Selected
import BugReport.Proofs.Expression.Words
import BugReport.Proofs.Filter.Meaning
import BugReport.Proofs.Filter.Groups
import BugReport.Proofs.Search.Agreement
import BugReport.Proofs.Search.Numbering
import BugReport.Proofs.Report.Labels
import BugReport.Proofs.Sql.Shown
import BugReport.Proofs.Query.Contributions
import BugReport.Proofs.Query.Inserted
import BugReport.Proofs.Query.Pairs
import BugReport.Proofs.Text.Sequences
import BugReport.Proofs.Expression.Tidied
import BugReport.Proofs.Parameter.Setting
import BugReport.Proofs.Search.Reading
import BugReport.Proofs.Query.Refused
import BugReport.Proofs.Parameter.Lines
import BugReport.Proofs.Report.Arguments
import BugReport.Proofs.Query.Counted
import BugReport.Proofs.Report.Protocol
import BugReport.Proofs.Report.Cache
import BugReport.Proofs.Query.Naming
import BugReport.Proofs.Parameter.History
import BugReport.Proofs.Parameter.Stored
import BugReport.Proofs.Report.Precedence
import BugReport.Proofs.Sql.Formula
import BugReport.Proofs.Filter.Clause
import BugReport.Proofs.Filter.Complement
import BugReport.Proofs.Column.Arrangement
import BugReport.Proofs.Query.ColumnChanges
import BugReport.Proofs.Query.Group
import BugReport.Proofs.Report.Rows
import BugReport.Proofs.Report.TableLines
import BugReport.Proofs.Report.Bars
import BugReport.Proofs.Report.Totals
import BugReport.Proofs.Report.MarkdownTables
import BugReport.Proofs.Report.TextTables
import BugReport.Proofs.Expression.MatchRoundTrip
import BugReport.Proofs.Expression.ColumnRoundTrip
import BugReport.Proofs.Filter.Decoding
import BugReport.Proofs.Sql.ByteOrder
import BugReport.Proofs.Calendar.Order
import BugReport.Proofs.Text.DigitOrder
import BugReport.Proofs.Calendar.DateText
import BugReport.Proofs.Expression.Offsets
import BugReport.Proofs.Expression.DateGrammar
import BugReport.Proofs.Filter.DateClauses
import BugReport.Proofs.Filter.DateWindows
import BugReport.Proofs.Report.Radar
import BugReport.Proofs.Parameter.Spacing
import BugReport.Proofs.Query.ListedFields
