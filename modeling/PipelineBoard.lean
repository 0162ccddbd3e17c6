import PipelineBoard.Board
import PipelineBoard.Board.InPlace
import PipelineBoard.Build
import PipelineBoard.CommandLine.Arguments
import PipelineBoard.CommandLine.Log
import PipelineBoard.CommandLine.Run
import PipelineBoard.Graph.Basic
import PipelineBoard.Graph.Check
import PipelineBoard.Graph.Edit
import PipelineBoard.Graph.Order
import PipelineBoard.Graph.Tables
import PipelineBoard.Http.Body
import PipelineBoard.Http.Disposition
import PipelineBoard.Http.Encoding
import PipelineBoard.Http.Message
import PipelineBoard.Http.Number
import PipelineBoard.Http.Route
import PipelineBoard.Http.Server
import PipelineBoard.Http.Target
import PipelineBoard.Json.Basic
import PipelineBoard.Json.Printer
import PipelineBoard.Json.Reader
import PipelineBoard.Main
import PipelineBoard.Number.Binary64
import PipelineBoard.Number.Decimal
import PipelineBoard.Number.Numeral
import PipelineBoard.Script.Emit
import PipelineBoard.Script.FileName
import PipelineBoard.Script.Fragment
import PipelineBoard.Script.Params
import PipelineBoard.Script.Writer
import PipelineBoard.Settings
import PipelineBoard.Snapshot.File
import PipelineBoard.Snapshot.Inspection
import PipelineBoard.Snapshot.Load
import PipelineBoard.Snapshot.Passes
import PipelineBoard.Snapshot.Reader
import PipelineBoard.Stage
import PipelineBoard.Storage.Basic
import PipelineBoard.Storage.Path
import PipelineBoard.Text.Basic
import PipelineBoard.Text.Blank
import PipelineBoard.Text.Digit
import PipelineBoard.Text.Identifier
import PipelineBoard.Text.Percent
import PipelineBoard.Text.Printable
import PipelineBoard.Text.Quoted
import PipelineBoard.Text.Uppercase
import PipelineBoard.Text.Utf8
import PipelineBoard.Proofs.Board.Groups
import PipelineBoard.Proofs.Board.InPlace
import PipelineBoard.Proofs.Board.Quiet
import PipelineBoard.Proofs.Board.Runs
import PipelineBoard.Proofs.Board.Updates
import PipelineBoard.Proofs.CommandLine.Destination
import PipelineBoard.Proofs.CommandLine.Endings
import PipelineBoard.Proofs.CommandLine.Library
import PipelineBoard.Proofs.CommandLine.Log
import PipelineBoard.Proofs.CommandLine.Misleading
import PipelineBoard.Proofs.CommandLine.Runs
import PipelineBoard.Proofs.Graph.Additions
import PipelineBoard.Proofs.Graph.Builds
import PipelineBoard.Proofs.Graph.Edits
import PipelineBoard.Proofs.Graph.Ids
import PipelineBoard.Proofs.Graph.InOrder
import PipelineBoard.Proofs.Graph.Positions
import PipelineBoard.Proofs.Graph.Problems
import PipelineBoard.Proofs.Graph.Removals
import PipelineBoard.Proofs.Graph.Renaming
import PipelineBoard.Proofs.Graph.Sink
import PipelineBoard.Proofs.Graph.Unread
import PipelineBoard.Proofs.Graph.Valid
import PipelineBoard.Proofs.Graph.ValidEdits
import PipelineBoard.Proofs.Graph.WellFormed
import PipelineBoard.Proofs.Http.Addresses
import PipelineBoard.Proofs.Http.Disposition
import PipelineBoard.Proofs.Http.Edits
import PipelineBoard.Proofs.Json.Encodable
import PipelineBoard.Proofs.Json.Fields
import PipelineBoard.Proofs.Json.LongNumbers
import PipelineBoard.Proofs.Json.Numerals
import PipelineBoard.Proofs.Json.Printer
import PipelineBoard.Proofs.Json.Reading
import PipelineBoard.Proofs.Json.RoundTrip
import PipelineBoard.Proofs.Json.Short
import PipelineBoard.Proofs.Lists
import PipelineBoard.Proofs.Number.Rounding
import PipelineBoard.Proofs.Number.Shortest
import PipelineBoard.Proofs.Order.FixedPoint
import PipelineBoard.Proofs.Order.Queue
import PipelineBoard.Proofs.Order.Reach
import PipelineBoard.Proofs.Order.Renaming
import PipelineBoard.Proofs.Order.Repeats
import PipelineBoard.Proofs.Order.Run
import PipelineBoard.Proofs.Order.Sink
import PipelineBoard.Proofs.Order.Tables
import PipelineBoard.Proofs.Order.Ties
import PipelineBoard.Proofs.Script.Code
import PipelineBoard.Proofs.Script.Comments
import PipelineBoard.Proofs.Script.Emit
import PipelineBoard.Proofs.Script.Encodable
import PipelineBoard.Proofs.Script.Encoding
import PipelineBoard.Proofs.Script.Feet
import PipelineBoard.Proofs.Script.FileName
import PipelineBoard.Proofs.Script.LastLine
import PipelineBoard.Proofs.Script.Layout
import PipelineBoard.Proofs.Script.Names
import PipelineBoard.Proofs.Script.Nulls
import PipelineBoard.Proofs.Script.Pieces
import PipelineBoard.Proofs.Script.Reads
import PipelineBoard.Proofs.Script.Scope
import PipelineBoard.Proofs.Script.Shown
import PipelineBoard.Proofs.Script.Variables
import PipelineBoard.Proofs.Snapshot.Encodable
import PipelineBoard.Proofs.Snapshot.Grammar
import PipelineBoard.Proofs.Snapshot.Inspections
import PipelineBoard.Proofs.Snapshot.Loading
import PipelineBoard.Proofs.Snapshot.Notices
import PipelineBoard.Proofs.Snapshot.Passes
import PipelineBoard.Proofs.Snapshot.Reading
import PipelineBoard.Proofs.Snapshot.RoundTrip
import PipelineBoard.Proofs.Snapshot.Shapes
import PipelineBoard.Proofs.Snapshot.Short
import PipelineBoard.Proofs.Snapshot.Strictness
import PipelineBoard.Proofs.Storage.Asking
import PipelineBoard.Proofs.Storage.Paths
import PipelineBoard.Proofs.Storage.Saving
import PipelineBoard.Proofs.Text.Codec
import PipelineBoard.Proofs.Text.Digit
import PipelineBoard.Proofs.Text.Encodable
import PipelineBoard.Proofs.Text.Identifier
import PipelineBoard.Proofs.Text.Lines
import PipelineBoard.Proofs.Text.Literal
import PipelineBoard.Proofs.Text.Quoted
import PipelineBoard.Proofs.Text.Utf8
