import Guestbook.Action
import Guestbook.Board
import Guestbook.Board.Bench
import Guestbook.Board.Expectation
import Guestbook.Board.Request
import Guestbook.Cache
import Guestbook.Cache.Backend
import Guestbook.Cache.Lru
import Guestbook.Cache.Map
import Guestbook.Cache.Recording
import Guestbook.Cache.Request
import Guestbook.Config
import Guestbook.Duration
import Guestbook.Error
import Guestbook.Event
import Guestbook.Gate
import Guestbook.Gate.Rehearsal
import Guestbook.Gate.System
import Guestbook.Gate.Wait
import Guestbook.Json.Decode
import Guestbook.Json.Encode
import Guestbook.Json.Error
import Guestbook.Json.Literal
import Guestbook.Json.Member
import Guestbook.Json.Members
import Guestbook.Json.Number
import Guestbook.Json.Scalar
import Guestbook.Json.Skip
import Guestbook.Json.StringLiteral
import Guestbook.Message
import Guestbook.Page
import Guestbook.Proofs.Action
import Guestbook.Proofs.Board.AnyOrder
import Guestbook.Proofs.Board.Atomicity
import Guestbook.Proofs.Board.ByTime
import Guestbook.Proofs.Board.Cached
import Guestbook.Proofs.Board.Containment
import Guestbook.Proofs.Board.Consulted
import Guestbook.Proofs.Board.Contents
import Guestbook.Proofs.Board.Coverage
import Guestbook.Proofs.Board.Damage
import Guestbook.Proofs.Board.Frame
import Guestbook.Proofs.Board.Freshness
import Guestbook.Proofs.Board.Ids
import Guestbook.Proofs.Board.LastMessages
import Guestbook.Proofs.Board.LogView
import Guestbook.Proofs.Board.Outage
import Guestbook.Proofs.Board.PageOrder
import Guestbook.Proofs.Board.Paging
import Guestbook.Proofs.Board.ReadThrough
import Guestbook.Proofs.Board.Reads
import Guestbook.Proofs.Board.Run
import Guestbook.Proofs.Board.Search
import Guestbook.Proofs.Board.Transparency
import Guestbook.Proofs.Board.Twins
import Guestbook.Proofs.Board.Uncached
import Guestbook.Proofs.Board.Writes
import Guestbook.Proofs.Cache.Accounting
import Guestbook.Proofs.Cache.Arithmetic
import Guestbook.Proofs.Cache.Budget
import Guestbook.Proofs.Cache.Declining
import Guestbook.Proofs.Cache.Eviction
import Guestbook.Proofs.Cache.Lawful
import Guestbook.Proofs.Cache.Lru
import Guestbook.Proofs.Cache.Recording
import Guestbook.Proofs.Cache.Refinement
import Guestbook.Proofs.Cache.Run
import Guestbook.Proofs.Cache.Tally
import Guestbook.Proofs.Config
import Guestbook.Proofs.Gate.Attempts
import Guestbook.Proofs.Gate.Connections
import Guestbook.Proofs.Gate.Readiness
import Guestbook.Proofs.Gate.Run
import Guestbook.Proofs.InStep
import Guestbook.Proofs.Json.Grammar
import Guestbook.Proofs.Json.Layout
import Guestbook.Proofs.Json.Length
import Guestbook.Proofs.Json.Number
import Guestbook.Proofs.Json.RoundTrip
import Guestbook.Proofs.Json.SelfDelimiting
import Guestbook.Proofs.Json.Skipping
import Guestbook.Proofs.Json.Stability
import Guestbook.Proofs.Json.StringLiteral
import Guestbook.Proofs.Message
import Guestbook.Proofs.Message.Composing
import Guestbook.Proofs.Page
import Guestbook.Proofs.Record
import Guestbook.Proofs.Record.Reading
import Guestbook.Proofs.SortedMap
import Guestbook.Proofs.Store.Counter
import Guestbook.Proofs.Store.Frame
import Guestbook.Proofs.Store.Log
import Guestbook.Proofs.Store.Memory
import Guestbook.Proofs.Store.Observed
import Guestbook.Proofs.Store.Ranges
import Guestbook.Proofs.Store.Records
import Guestbook.Proofs.Store.Run
import Guestbook.Proofs.Store.Twins
import Guestbook.Proofs.Text.Blank
import Guestbook.Proofs.Text.Decimal
import Guestbook.Proofs.Text.Numeral
import Guestbook.Proofs.Word
import Guestbook.Record
import Guestbook.Record.Message
import Guestbook.SortedMap
import Guestbook.Store
import Guestbook.Store.Memory
import Guestbook.Store.Observed
import Guestbook.Store.Request
import Guestbook.Text.Blank
import Guestbook.Text.Bytes
import Guestbook.Text.Decimal
import Guestbook.Text.Quoted
import Guestbook.Text.Unprintable
import Guestbook.Word
