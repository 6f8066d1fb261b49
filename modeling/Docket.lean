import Docket.Bulk
import Docket.Client
import Docket.Client.Fetch
import Docket.Client.Post
import Docket.Client.Progress
import Docket.Config
import Docket.Engine
import Docket.Error
import Docket.Hit
import Docket.Http.Calls
import Docket.Http.Scroll
import Docket.Http.Url
import Docket.Http.Wire
import Docket.InMemory
import Docket.Json
import Docket.Json.Decode
import Docket.Json.Order
import Docket.Json.Quoted
import Docket.Json.Tree
import Docket.Log
import Docket.Net.Address
import Docket.Net.Datagram
import Docket.Number
import Docket.Number.Binary64
import Docket.Number.Literal
import Docket.Number.Shortest
import Docket.Pattern
import Docket.Pattern.Blank
import Docket.Pattern.Bracket
import Docket.Pattern.Cause
import Docket.Pattern.CharClass
import Docket.Pattern.Escape
import Docket.Pattern.Match
import Docket.Pattern.Node
import Docket.Pattern.Reader
import Docket.Pattern.Size
import Docket.Proofs.Agreement
import Docket.Proofs.Anchoring
import Docket.Proofs.Batching
import Docket.Proofs.Bodies
import Docket.Proofs.BulkBody
import Docket.Proofs.BulkReplies
import Docket.Proofs.Bystanders
import Docket.Proofs.Composing
import Docket.Proofs.Conduct
import Docket.Proofs.Cutting
import Docket.Proofs.Destination
import Docket.Proofs.DirectReading
import Docket.Proofs.Enclosing
import Docket.Proofs.ErrorBody
import Docket.Proofs.Execution
import Docket.Proofs.HitOrder
import Docket.Proofs.IdleClient
import Docket.Proofs.Interchange
import Docket.Proofs.Literals
import Docket.Proofs.Marks
import Docket.Proofs.MissingIndex
import Docket.Proofs.Order
import Docket.Proofs.OrderedMap
import Docket.Proofs.Pages
import Docket.Proofs.Paths
import Docket.Proofs.Payloads
import Docket.Proofs.Percent
import Docket.Proofs.Preorder
import Docket.Proofs.Preparing
import Docket.Proofs.Projecting
import Docket.Proofs.Quoting
import Docket.Proofs.Reading
import Docket.Proofs.Record
import Docket.Proofs.Rendering
import Docket.Proofs.Request
import Docket.Proofs.Resending
import Docket.Proofs.Restoring
import Docket.Proofs.Results
import Docket.Proofs.RoundTrip
import Docket.Proofs.Rounding
import Docket.Proofs.Scrolling
import Docket.Proofs.Searching
import Docket.Proofs.Segments
import Docket.Proofs.Selection
import Docket.Proofs.Sending
import Docket.Proofs.Settings
import Docket.Proofs.Sharing
import Docket.Proofs.SortKeys
import Docket.Proofs.Sorting
import Docket.Proofs.Streaming
import Docket.Proofs.Ties
import Docket.Proofs.Trailing
import Docket.Proofs.TrailingClasses
import Docket.Proofs.TrailingItems
import Docket.Proofs.Writing
import Docket.Query.Builder
import Docket.Query.Constraint
import Docket.Query.Document
import Docket.Query.Sort
import Docket.Record
import Docket.Rehearsed
import Docket.Response
import Docket.Session
import Docket.Store
import Docket.Store.Clause
import Docket.Store.Search
import Docket.Text.Cut
import Docket.Text.Diagnostic
import Docket.Text.Unicode
import Docket.Text.Unprintable
