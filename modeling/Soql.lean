import Soql.Json.Reader
import Soql.Json.Record
import Soql.Text.Alphanumeric
import Soql.Text.Blank
import Soql.Text.Lowercase
import Soql.Text.Slice
import Soql.Token.Parts
import Soql.Cursor.Basic
import Soql.Cursor.Request
import Soql.Cursor.Walk
import Soql.Decimal.Canonical
import Soql.Literal.Bind
import Soql.Literal.Date
import Soql.Literal.Quoted
import Soql.Literal.Written
import Soql.Query.Clause
import Soql.Query.Condition
import Soql.Query.Json
import Soql.Builder.Compose
import Soql.Builder.Import
import Soql.Builder.Json
import Soql.Schema.Cache.Request
import Soql.Schema.Record
import Soql.Schema.Sample
import Soql.Scanner.Basic
import Soql.Scanner.Query
import Soql.Scanner.Literal
import Soql.Scanner.Builder
import Soql.Scanner.Validation
import Soql.Main
import Soql.Proofs.Text.Trim
import Soql.Proofs.Text.Words
import Soql.Proofs.Text.Lowercase
import Soql.Proofs.Text.FoldCase
import Soql.Proofs.Text.Slice
import Soql.Proofs.Text.ByteOrder
import Soql.Proofs.Text.Pattern
import Soql.Proofs.Token.Lexeme
import Soql.Proofs.Token.Stretch
import Soql.Proofs.Token.Shape
import Soql.Proofs.Token.Trim
import Soql.Proofs.Token.Level
import Soql.Proofs.Token.Parts
import Soql.Proofs.Token.Join
import Soql.Proofs.Token.Separators
import Soql.Proofs.Token.Characters
import Soql.Proofs.Token.FoldCase
import Soql.Proofs.Token.Reread
import Soql.Proofs.Token.Place
import Soql.Proofs.Token.Ahead
import Soql.Proofs.Token.Partition
import Soql.Proofs.Token.Pattern
import Soql.Proofs.Token.LongestMatch
import Soql.Proofs.Token.Unclosed
import Soql.Proofs.Token.Matching
import Soql.Proofs.Token.Locality
import Soql.Proofs.Json.Quoted
import Soql.Proofs.Json.Record
import Soql.Proofs.Literal.Date
import Soql.Proofs.Literal.Bare
import Soql.Proofs.Literal.Written
import Soql.Proofs.Literal.FoldCase
import Soql.Proofs.Query.Clause
import Soql.Proofs.Query.Similar
import Soql.Proofs.Query.Swap
import Soql.Proofs.Query.Path
import Soql.Proofs.Query.Search
import Soql.Proofs.Query.Condition
import Soql.Proofs.Query.Layout
import Soql.Proofs.Query.Printed
import Soql.Proofs.Query.Comparison
import Soql.Proofs.Query.Value
import Soql.Proofs.Query.Count
import Soql.Proofs.Query.Selection
import Soql.Proofs.Query.Column
import Soql.Proofs.Query.Part
import Soql.Proofs.Query.FoldCase
import Soql.Proofs.Query.Operator
import Soql.Proofs.Literal.Quote
import Soql.Proofs.Cursor.Search
import Soql.Proofs.Cursor.Session
import Soql.Proofs.Query.Extraction
import Soql.Proofs.Builder.OrderBy
import Soql.Proofs.Builder.Legible
import Soql.Proofs.Builder.Injection
import Soql.Proofs.Builder.Value
import Soql.Proofs.Builder.Subquery
import Soql.Proofs.Builder.ReadBack
import Soql.Proofs.Builder.Steady
import Soql.Proofs.Builder.Stability
import Soql.Proofs.Builder.Identity
import Soql.Proofs.Builder.CarryOver
import Soql.Proofs.Builder.NormalForm
import Soql.Proofs.Builder.Repetition
import Soql.Proofs.Builder.Lossless
import Soql.Proofs.Builder.Plain
import Soql.Proofs.Builder.RoundTrip
import Soql.Proofs.Builder.Quoting
import Soql.Proofs.Builder.ListGroup
import Soql.Proofs.Builder.Membership
import Soql.Proofs.Builder.Paging
import Soql.Proofs.Builder.Accounting
import Soql.Proofs.Builder.Persistence
import Soql.Proofs.Schema.NameMap
import Soql.Proofs.Schema.Describe
import Soql.Proofs.Schema.Record
import Soql.Proofs.Schema.Cache.History
import Soql.Proofs.Schema.Cache.Purge
import Soql.Proofs.Query.Spacing
import Soql.Proofs.Query.Limit
import Soql.Proofs.Validation.FoldCase
import Soql.Proofs.Validation.Grouping
import Soql.Proofs.Validation.Switches
import Soql.Proofs.Scanner.Basic
import Soql.Proofs.Scanner.Query
import Soql.Proofs.Scanner.Literal
import Soql.Proofs.Scanner.Builder
import Soql.Proofs.Scanner.Validation
import Soql.Proofs.Scanner.InRange
import Soql.Proofs.Literal.Iso
import Soql.Proofs.Builder.RelativeDate
