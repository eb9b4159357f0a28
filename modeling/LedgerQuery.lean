import LedgerQuery.Clause.Template
import LedgerQuery.Endpoint
import LedgerQuery.Fault.Notice
import LedgerQuery.Journal.Session
import LedgerQuery.Numeral.FloatLiteral
import LedgerQuery.Vocabulary
import LedgerQuery.Proofs.Sql.Closed
import LedgerQuery.Proofs.Clause.Balance
import LedgerQuery.Proofs.Sql.Relabel
import LedgerQuery.Proofs.Sql.Joined
import LedgerQuery.Proofs.Sql.Assigned
import LedgerQuery.Proofs.Clause.Numbered
import LedgerQuery.Proofs.Sql.Silent
import LedgerQuery.Proofs.Sql.Column
import LedgerQuery.Proofs.Clause.Retain
import LedgerQuery.Proofs.Link.Component
import LedgerQuery.Proofs.Link.Basic
import LedgerQuery.Proofs.Query
import LedgerQuery.Proofs.Paging.Advance
import LedgerQuery.Proofs.Paging.Memoryless
import LedgerQuery.Proofs.Numeral.Literal
import LedgerQuery.Proofs.Paging.Scan
import LedgerQuery.Proofs.Paging.Fetch
import LedgerQuery.Proofs.Interval
import LedgerQuery.Proofs.Timestamp.Merge
import LedgerQuery.Proofs.Numeral.Quotient
import LedgerQuery.Proofs.Timestamp.Acceptance
import LedgerQuery.Proofs.Clause.Part
import LedgerQuery.Proofs.Clause.Pairs
import LedgerQuery.Proofs.Clause.Column
import LedgerQuery.Proofs.Timestamp.Agreement
import LedgerQuery.Proofs.Request.Validate
import LedgerQuery.Proofs.Paging.Accepted
import LedgerQuery.Proofs.Key.Wire
import LedgerQuery.Proofs.Key.Message
import LedgerQuery.Proofs.Key.Wrapper
import LedgerQuery.Proofs.Request.Clauses
import LedgerQuery.Proofs.Request.Page
import LedgerQuery.Proofs.Key.Opening
import LedgerQuery.Proofs.Key.Written
import LedgerQuery.Proofs.Key.Provenance
import LedgerQuery.Proofs.Key.Spelling
import LedgerQuery.Proofs.Request.Range
import LedgerQuery.Proofs.Request.Report
import LedgerQuery.Proofs.Paging.Steps
import LedgerQuery.Proofs.Paging.Exhausted
import LedgerQuery.Proofs.Paging.Verdict
import LedgerQuery.Proofs.Paging.Permuted
import LedgerQuery.Proofs.Paging.Content
import LedgerQuery.Proofs.Paging.Sent
import LedgerQuery.Proofs.Distinct
import LedgerQuery.Proofs.Token.Distinct
import LedgerQuery.Proofs.Clause.Distinct
import LedgerQuery.Proofs.Clause.Selection
import LedgerQuery.Proofs.Timestamp.Malformed
import LedgerQuery.Proofs.Timestamp.RangeColumn
import LedgerQuery.Proofs.Timestamp.Literal
import LedgerQuery.Proofs.EntityId.Encoded
import LedgerQuery.Proofs.Numeral.Run
import LedgerQuery.Proofs.EntityId.Text
import LedgerQuery.Proofs.Field.Timestamp
import LedgerQuery.Proofs.Sql.Span
import LedgerQuery.Proofs.Sql.Rendered
import LedgerQuery.Proofs.Key.Canonical
import LedgerQuery.Proofs.Field.Slot
import LedgerQuery.Proofs.Field.Balance
import LedgerQuery.Proofs.Clause.Conjunction
import LedgerQuery.Proofs.Interval.Empty
import LedgerQuery.Proofs.Key.Number
import LedgerQuery.Proofs.Key.Layout
import LedgerQuery.Proofs.Field.Integer
import LedgerQuery.Proofs.Json.Printable
import LedgerQuery.Proofs.Journal.Structured
