import ScopedQuery.Main
import ScopedQuery.Sql.Encoding
import ScopedQuery.Proofs.Lexical.Piece
import ScopedQuery.Proofs.Lexical.Number
import ScopedQuery.Proofs.Decimal.Sign
import ScopedQuery.Proofs.Lexical.Expression
import ScopedQuery.Proofs.Function.Denotation
import ScopedQuery.Proofs.Lexical.Query
import ScopedQuery.Proofs.Lexical.Argument
import ScopedQuery.Proofs.Outcome
import ScopedQuery.Proofs.Request.Stages
import ScopedQuery.Proofs.Request.Growth
import ScopedQuery.Proofs.Selection.Items
import ScopedQuery.Proofs.Lexical.Request
import ScopedQuery.Proofs.Boolean.Reading
import ScopedQuery.Proofs.Boolean.Guarded
import ScopedQuery.Proofs.Boolean.Exposed
import ScopedQuery.Proofs.Rows.Truth
import ScopedQuery.Proofs.Request.Frame
import ScopedQuery.Proofs.Rows.Rule
import ScopedQuery.Proofs.Rows.Sharing
import ScopedQuery.Proofs.Rows.Ownership
import ScopedQuery.Proofs.Catalog.Users
import ScopedQuery.Proofs.Memo.Sound
import ScopedQuery.Proofs.Request.Memory
import ScopedQuery.Proofs.Request.Enforcement
import ScopedQuery.Proofs.Rows.Confinement
import ScopedQuery.Proofs.Rows.Strictness
import ScopedQuery.Proofs.Function.Transparency
import ScopedQuery.Proofs.Selection.Narrowing
import ScopedQuery.Proofs.Text.Trimming
import ScopedQuery.Proofs.Clause.Spelling
import ScopedQuery.Proofs.Clause.Labelling
import ScopedQuery.Proofs.Request.Steps
import ScopedQuery.Proofs.Selection.Leads
import ScopedQuery.Proofs.Columns.Selected
import ScopedQuery.Proofs.Columns.Ownership
import ScopedQuery.Proofs.Rows.Parentage
import ScopedQuery.Proofs.Sql.Vocabulary
import ScopedQuery.Proofs.Names.Proper
import ScopedQuery.Proofs.Names.Selected
import ScopedQuery.Proofs.Names.Request
import ScopedQuery.Proofs.Filter.Resolution
import ScopedQuery.Proofs.Joins.Extension
import ScopedQuery.Proofs.Joins.Demand
import ScopedQuery.Proofs.Joins.Sequence
import ScopedQuery.Proofs.Joins.Way
import ScopedQuery.Proofs.Joins.Request
import ScopedQuery.Proofs.Joins.Own
import ScopedQuery.Proofs.Sql.Occurrence
import ScopedQuery.Proofs.Tables.Stages
import ScopedQuery.Proofs.Tables.Absent
import ScopedQuery.Proofs.Request.History
import ScopedQuery.Proofs.Access.Gate
import ScopedQuery.Proofs.Request.Denial
import ScopedQuery.Proofs.Tables.Scan
import ScopedQuery.Proofs.Tables.Calm
import ScopedQuery.Proofs.Tables.Mentioned
import ScopedQuery.Proofs.Catalog.Template
import ScopedQuery.Proofs.Tree.Forest
import ScopedQuery.Proofs.Tree.Relatives
import ScopedQuery.Proofs.Selection.Referral
import ScopedQuery.Proofs.Filter.Firewall
import ScopedQuery.Proofs.Filter.WellFormed
import ScopedQuery.Proofs.Request.Children
import ScopedQuery.Proofs.Filter.Kinship
import ScopedQuery.Proofs.Filter.Writing
import ScopedQuery.Proofs.Sql.Answer
import ScopedQuery.Proofs.Tree.Lookup
import ScopedQuery.Proofs.Text.Cut
import ScopedQuery.Proofs.Function.Atom
import ScopedQuery.Proofs.Function.Canonical
import ScopedQuery.Proofs.Function.Rereading
import ScopedQuery.Proofs.Lexical.Quoting
import ScopedQuery.Proofs.Clause.Listing
import ScopedQuery.Proofs.Selection.Listing
import ScopedQuery.Proofs.Operator.Precedence
import ScopedQuery.Proofs.Operator.Reading
import ScopedQuery.Proofs.Operator.Value
import ScopedQuery.Proofs.Operator.Lexing
import ScopedQuery.Proofs.Operator.Arithmetic
import ScopedQuery.Proofs.Function.Recognition
import ScopedQuery.Proofs.Selection.QuotedCall
import ScopedQuery.Proofs.Text.Words
import ScopedQuery.Proofs.Clause.Ordering
import ScopedQuery.Proofs.Clause.Cut
import ScopedQuery.Proofs.Selection.Decomposition
import ScopedQuery.Proofs.Request.Material
import ScopedQuery.Proofs.Rows.Material
import ScopedQuery.Proofs.Lexical.Lexeme
import ScopedQuery.Proofs.Tables.Span
import ScopedQuery.Proofs.Tables.Qualified
import ScopedQuery.Proofs.Tables.Statement
import ScopedQuery.Proofs.Tables.Grounded
import ScopedQuery.Proofs.Tables.Introduced
import ScopedQuery.Proofs.Memo.Recency
import ScopedQuery.Proofs.Memo.Order
import ScopedQuery.Proofs.Memo.Run
import ScopedQuery.Proofs.Memo.Inclusion
import ScopedQuery.Proofs.Sql.Comment
import ScopedQuery.Proofs.Decode.Record
import ScopedQuery.Proofs.Request.Document
import ScopedQuery.Proofs.Text.Division
import ScopedQuery.Proofs.Function.Pieces
import ScopedQuery.Proofs.Function.Numeral
