import DailyBars.Arguments
import DailyBars.AssetId
import DailyBars.Bar
import DailyBars.Behavior
import DailyBars.Binary64.Basic
import DailyBars.Binary64.Decimal
import DailyBars.Binary64.Shortest
import DailyBars.Binary64.Text
import DailyBars.Bisect
import DailyBars.Bytes.Blake3
import DailyBars.Bytes.LittleEndian
import DailyBars.Cache
import DailyBars.Calendar.Basic
import DailyBars.Calendar.SessionFile
import DailyBars.Calendar.Weekday
import DailyBars.Command
import DailyBars.Config
import DailyBars.Config.Document
import DailyBars.Consistency
import DailyBars.Dataset
import DailyBars.Day.Basic
import DailyBars.Day.Civil
import DailyBars.Day.Instant
import DailyBars.Day.List
import DailyBars.Day.Text
import DailyBars.Error
import DailyBars.Files
import DailyBars.Json
import DailyBars.Main
import DailyBars.OffsetIndex
import DailyBars.Outcome
import DailyBars.Proofs.AssetId
import DailyBars.Proofs.Binary64.Nearest
import DailyBars.Proofs.Bytes.SelfDelimiting
import DailyBars.Proofs.Calendar.Lawful
import DailyBars.Proofs.Calendar.Records
import DailyBars.Proofs.Calendar.Reports
import DailyBars.Proofs.Calendar.Run
import DailyBars.Proofs.Calendar.SessionFile
import DailyBars.Proofs.Calendar.Weekday
import DailyBars.Proofs.Config.Document
import DailyBars.Proofs.Dataset.Accounting
import DailyBars.Proofs.Dataset.Additions
import DailyBars.Proofs.Dataset.Atomicity
import DailyBars.Proofs.Dataset.Chronology
import DailyBars.Proofs.Dataset.Chunks
import DailyBars.Proofs.Dataset.Coherence
import DailyBars.Proofs.Dataset.Dispositions
import DailyBars.Proofs.Dataset.Independence
import DailyBars.Proofs.Dataset.Ingested
import DailyBars.Proofs.Dataset.LastTraded
import DailyBars.Proofs.Dataset.LeftOut
import DailyBars.Proofs.Dataset.Lookups
import DailyBars.Proofs.Dataset.OtherCalendar
import DailyBars.Proofs.Dataset.Repetition
import DailyBars.Proofs.Dataset.RowNumbers
import DailyBars.Proofs.Dataset.Runs
import DailyBars.Proofs.Dataset.Tapes
import DailyBars.Proofs.Dataset.TwoHandles
import DailyBars.Proofs.Day.Moment
import DailyBars.Proofs.Day.Ranges
import DailyBars.Proofs.Day.Reading
import DailyBars.Proofs.Files.Keeping
import DailyBars.Proofs.Files.Listing
import DailyBars.Proofs.Files.Writing
import DailyBars.Proofs.OffsetIndex.Build
import DailyBars.Proofs.OffsetIndex.Slices
import DailyBars.Proofs.OffsetIndex.Tiling
import DailyBars.Proofs.Reader.Alignment
import DailyBars.Proofs.Reader.Coherence
import DailyBars.Proofs.Reader.Filling
import DailyBars.Proofs.Reader.LastTraded
import DailyBars.Proofs.Reader.Load
import DailyBars.Proofs.Reader.OldIndex
import DailyBars.Proofs.Reader.Placement
import DailyBars.Proofs.Reader.Values
import DailyBars.Proofs.Run.Ingest
import DailyBars.Proofs.Run.Numbers
import DailyBars.Proofs.Run.Symbols
import DailyBars.Proofs.Run.Tables
import DailyBars.Proofs.Store.Assets
import DailyBars.Proofs.Store.Chronology
import DailyBars.Proofs.Store.Content
import DailyBars.Proofs.Store.Rows
import DailyBars.Proofs.Store.Spans
import DailyBars.Proofs.Store.Transactions
import DailyBars.Proofs.SymbolMap.Assignment
import DailyBars.Proofs.SymbolMap.Document
import DailyBars.Proofs.SymbolMap.Entries
import DailyBars.Proofs.SymbolMap.Numbering
import DailyBars.Proofs.SymbolMap.Saved
import DailyBars.Proofs.Table.Bars
import DailyBars.Proofs.Table.DayColumn
import DailyBars.Proofs.Table.Layout
import DailyBars.Proofs.Table.Order
import DailyBars.Proofs.Table.Outcomes
import DailyBars.Proofs.Table.Reorder
import DailyBars.Proofs.Text.Integer
import DailyBars.Proofs.Toml.Document
import DailyBars.Proofs.Toml.Keys
import DailyBars.Proofs.Toml.Lines
import DailyBars.Proofs.Toml.Strings
import DailyBars.Proofs.Toml.Values
import DailyBars.Proofs.Writer.Accounting
import DailyBars.Proofs.Writer.Admission
import DailyBars.Proofs.Writer.ByAsset
import DailyBars.Proofs.Writer.Chronology
import DailyBars.Proofs.Writer.Chunks
import DailyBars.Proofs.Writer.Contiguous
import DailyBars.Proofs.Writer.Dispositions
import DailyBars.Proofs.Writer.Edges
import DailyBars.Proofs.Writer.Independence
import DailyBars.Proofs.Writer.Plan
import DailyBars.Proofs.Writer.Repetition
import DailyBars.Proofs.Writer.Reports
import DailyBars.Reader
import DailyBars.Report
import DailyBars.Run
import DailyBars.Settings
import DailyBars.Span
import DailyBars.Store.Access
import DailyBars.Store.Basic
import DailyBars.Store.Digest
import DailyBars.Store.Text
import DailyBars.SymbolMap.Basic
import DailyBars.SymbolMap.Document
import DailyBars.Table.Bars
import DailyBars.Table.Basic
import DailyBars.Table.Delimited
import DailyBars.Table.File
import DailyBars.Tape
import DailyBars.Text.Basic
import DailyBars.Text.Digits
import DailyBars.Text.Quoted
import DailyBars.Text.Utf8
import DailyBars.Toml.Document
import DailyBars.Toml.Printer
import DailyBars.Toml.Quoted
import DailyBars.Toml.Scalar
import DailyBars.Toml.Statement
import DailyBars.Toml.Table
import DailyBars.Toml.Value
import DailyBars.Writer
