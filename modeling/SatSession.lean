import SatSession.Catalogue
import SatSession.Catalogue.Resolve
import SatSession.Clause
import SatSession.Config
import SatSession.Cursor
import SatSession.Dimacs
import SatSession.Engine
import SatSession.Engine.Dispatch
import SatSession.Engine.Scripted
import SatSession.Engine.Table
import SatSession.ErrorClass
import SatSession.Fault
import SatSession.Formula
import SatSession.Heap
import SatSession.Heap.Request
import SatSession.Host
import SatSession.Number
import SatSession.Number.Binary64
import SatSession.Number.Decimal
import SatSession.Number.Fault
import SatSession.Number.Fraction
import SatSession.Number.Hypot
import SatSession.Number.Line
import SatSession.Number.Numeral
import SatSession.Number.Shortest
import SatSession.Op
import SatSession.Proofs.Aspects
import SatSession.Proofs.ClauseData
import SatSession.Proofs.Conversation.Closing
import SatSession.Proofs.Conversation.Confined
import SatSession.Proofs.Conversation.Delivering
import SatSession.Proofs.Conversation.FirstStep
import SatSession.Proofs.Conversation.Laws
import SatSession.Proofs.Conversation.Lifecycle
import SatSession.Proofs.Conversation.Loading
import SatSession.Proofs.Conversation.Reading
import SatSession.Proofs.Conversation.Record
import SatSession.Proofs.Conversation.Releasing
import SatSession.Proofs.Conversation.Rounds
import SatSession.Proofs.Conversation.Standing
import SatSession.Proofs.Cursors.Accounts
import SatSession.Proofs.Cursors.Advancing
import SatSession.Proofs.Cursors.Closing
import SatSession.Proofs.Cursors.Enumeration
import SatSession.Proofs.Cursors.Footprint
import SatSession.Proofs.Defects
import SatSession.Proofs.Ends
import SatSession.Proofs.Exchange.Dumps
import SatSession.Proofs.Exchange.Reading
import SatSession.Proofs.Exchange.RoundTrip
import SatSession.Proofs.Memory.Accounting
import SatSession.Proofs.Memory.Blocks
import SatSession.Proofs.Memory.Contents
import SatSession.Proofs.Memory.Course
import SatSession.Proofs.Memory.Dealings
import SatSession.Proofs.Memory.Frame
import SatSession.Proofs.Memory.Limits
import SatSession.Proofs.Memory.Request
import SatSession.Proofs.Memory.Whole
import SatSession.Proofs.Models
import SatSession.Proofs.Numbers.Exact
import SatSession.Proofs.Numbers.Points
import SatSession.Proofs.Numbers.Signs
import SatSession.Proofs.Refusals.Lockstep
import SatSession.Proofs.Refusals.Requests
import SatSession.Proofs.Refusals.Runs
import SatSession.Proofs.Refusals.Sessions
import SatSession.Proofs.Refusals.Tables
import SatSession.Proofs.Sessions.Asking
import SatSession.Proofs.Sessions.Blockable
import SatSession.Proofs.Sessions.Blocking
import SatSession.Proofs.Sessions.Decoding
import SatSession.Proofs.Sessions.Effort
import SatSession.Proofs.Sessions.Excluding
import SatSession.Proofs.Sessions.Opening
import SatSession.Proofs.Sessions.Restoring
import SatSession.Proofs.Sessions.Serving
import SatSession.Proofs.Sessions.Solving
import SatSession.Proofs.Sessions.Using
import SatSession.Proofs.Sharing.Leaving
import SatSession.Proofs.Sharing.Lodging
import SatSession.Proofs.Sharing.Objects
import SatSession.Proofs.Sharing.Sessions
import SatSession.Proofs.Sharing.Tables
import SatSession.Proofs.Sharing.Tenants
import SatSession.Proofs.Sharing.Together
import SatSession.Proofs.Tables.Abreast
import SatSession.Proofs.Tables.Display
import SatSession.Proofs.Tables.Draft
import SatSession.Proofs.Tables.History
import SatSession.Proofs.Tables.Incremental
import SatSession.Proofs.Tables.Interrupted
import SatSession.Proofs.Tables.Leftovers
import SatSession.Proofs.Tables.Loading
import SatSession.Proofs.Tables.Onward
import SatSession.Proofs.Tables.Retrying
import SatSession.Proofs.Tables.Room
import SatSession.Proofs.Tables.Safety
import SatSession.Proofs.Tables.Searching
import SatSession.Proofs.Tables.Seat
import SatSession.Proofs.Tables.Tally
import SatSession.Proofs.Tables.Usage
import SatSession.Proofs.Tables.Verdicts
import SatSession.Proofs.Tables.Words
import SatSession.Proofs.Turns
import SatSession.Scenario.Run
import SatSession.Scenario.Stage
import SatSession.Scenario.Step
import SatSession.Search
import SatSession.Search.Consequence
import SatSession.Search.Exhaustive
import SatSession.Search.Facts
import SatSession.Search.Front
import SatSession.Search.Learning
import SatSession.Search.Parity
import SatSession.Session
import SatSession.Solution
import SatSession.Solution.View
import SatSession.Solve
import SatSession.Text.Lines
import SatSession.Text.Printable
import SatSession.Text.Quoted
import SatSession.Value
import SatSession.Value.Compare
import SatSession.Value.Items
import SatSession.Value.Slots
import SatSession.Value.Text
import SatSession.Word
