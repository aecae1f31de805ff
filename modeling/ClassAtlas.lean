import ClassAtlas.Analysis
import ClassAtlas.Collect.KeepFirst
import ClassAtlas.Collect.NameSet
import ClassAtlas.CommandLine.Arguments
import ClassAtlas.CommandLine.Display
import ClassAtlas.CommandLine.Failure
import ClassAtlas.CommandLine.Program
import ClassAtlas.CommandLine.Shell
import ClassAtlas.CommandLine.ShellCommand
import ClassAtlas.CommandLine.View
import ClassAtlas.Decimal.Binary
import ClassAtlas.Decimal.Fixed
import ClassAtlas.Decimal.Shortest
import ClassAtlas.Files.Disk
import ClassAtlas.Graph.Basic
import ClassAtlas.Graph.Coupling
import ClassAtlas.Graph.Diagram
import ClassAtlas.Graph.Relation
import ClassAtlas.Json.Printer
import ClassAtlas.Json.Reader
import ClassAtlas.Main
import ClassAtlas.Proofs.Analysis
import ClassAtlas.Proofs.CommandLine.ShellLines
import ClassAtlas.Proofs.Diagram.Edges
import ClassAtlas.Proofs.Diagram.Exactness
import ClassAtlas.Proofs.Diagram.ReadBack
import ClassAtlas.Proofs.Graph.Degrees
import ClassAtlas.Proofs.Graph.Extension
import ClassAtlas.Proofs.Graph.NormalForm
import ClassAtlas.Proofs.Graph.Rearrangement
import ClassAtlas.Proofs.Graph.Relations
import ClassAtlas.Proofs.Graph.Restriction
import ClassAtlas.Proofs.Graph.Zones
import ClassAtlas.Proofs.Report.Caption
import ClassAtlas.Proofs.Report.FolderTree
import ClassAtlas.Proofs.Report.Lookup
import ClassAtlas.Proofs.Report.TreeText
import ClassAtlas.Proofs.Repository.Address
import ClassAtlas.Proofs.Repository.Folders
import ClassAtlas.Proofs.Repository.Requests
import ClassAtlas.Proofs.Repository.Selection
import ClassAtlas.Proofs.Repository.Spelling
import ClassAtlas.Proofs.Run.Course
import ClassAtlas.Proofs.Run.CourseOutcome
import ClassAtlas.Proofs.Run.Messages
import ClassAtlas.Proofs.Run.Outcome
import ClassAtlas.Proofs.Run.Publication
import ClassAtlas.Proofs.Run.SessionHistory
import ClassAtlas.Proofs.Run.Steps
import ClassAtlas.Proofs.Run.Uninterrupted
import ClassAtlas.Proofs.Settings.Loading
import ClassAtlas.Proofs.Source.Headers
import ClassAtlas.Proofs.Source.Keywords
import ClassAtlas.Proofs.Source.LineBreaks
import ClassAtlas.Proofs.Source.LineUses
import ClassAtlas.Proofs.Source.MemberShapes
import ClassAtlas.Proofs.Source.ReadNames
import ClassAtlas.Proofs.Source.SizeReading
import ClassAtlas.Proofs.Source.TypeLists
import ClassAtlas.Proofs.Source.TypeWords
import ClassAtlas.Proofs.Text.Identifiers
import ClassAtlas.Proofs.Text.LineFeeds
import ClassAtlas.Proofs.Text.Matching
import ClassAtlas.Proofs.Text.Openings
import ClassAtlas.Proofs.Text.Preference
import ClassAtlas.Proofs.Text.SingleBreaks
import ClassAtlas.Proofs.Text.WholeWords
import ClassAtlas.Proofs.Text.WordRuns
import ClassAtlas.Proofs.Text.Words
import ClassAtlas.Proofs.Web.Encoding
import ClassAtlas.Proofs.Web.Targets
import ClassAtlas.Report.Band
import ClassAtlas.Report.Caption
import ClassAtlas.Report.Column
import ClassAtlas.Report.Export
import ClassAtlas.Report.Folder
import ClassAtlas.Report.Histogram
import ClassAtlas.Report.Lookup
import ClassAtlas.Report.Table
import ClassAtlas.Report.Tree
import ClassAtlas.Repository.Client
import ClassAtlas.Repository.Host
import ClassAtlas.Repository.Listing
import ClassAtlas.Repository.Location
import ClassAtlas.Repository.Memory
import ClassAtlas.Repository.Selection
import ClassAtlas.Run.Error
import ClassAtlas.Run.Moment
import ClassAtlas.Run.Phase
import ClassAtlas.Run.Session
import ClassAtlas.Run.System
import ClassAtlas.Run.Want
import ClassAtlas.Settings.Basic
import ClassAtlas.Settings.Error
import ClassAtlas.Settings.Load
import ClassAtlas.Source.ClassInfo
import ClassAtlas.Source.Declaration
import ClassAtlas.Source.File
import ClassAtlas.Source.Reader
import ClassAtlas.Source.Size
import ClassAtlas.Source.TypeList
import ClassAtlas.Source.Uses
import ClassAtlas.Text.Blank
import ClassAtlas.Text.Digit
import ClassAtlas.Text.Letter
import ClassAtlas.Text.Pattern
import ClassAtlas.Text.Utf8
import ClassAtlas.Text.Word
import ClassAtlas.Toml.Reader
import ClassAtlas.Toml.Scalar
import ClassAtlas.Toml.Value
import ClassAtlas.Web.Address
import ClassAtlas.Web.Exchange
import ClassAtlas.Web.HostName
import ClassAtlas.Web.Percent
import ClassAtlas.Web.Punycode
import ClassAtlas.Web.Status
import ClassAtlas.Web.Wire
