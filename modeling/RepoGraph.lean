import RepoGraph.Analysis.Analyser
import RepoGraph.Analysis.Outcome
import RepoGraph.Bucket.Object
import RepoGraph.Command.Answer
import RepoGraph.Command.Arguments
import RepoGraph.Command.Grammar
import RepoGraph.Command.LineRange
import RepoGraph.Command.LocalPath
import RepoGraph.Command.Run
import RepoGraph.Decimal.Float
import RepoGraph.Decimal.Reading
import RepoGraph.Decimal.Shortest
import RepoGraph.Digest.Sha256
import RepoGraph.Document
import RepoGraph.Explain.Explanation
import RepoGraph.Explain.Prompt
import RepoGraph.Explain.Request
import RepoGraph.Explain.Summary
import RepoGraph.Failure
import RepoGraph.Graph.Artifact
import RepoGraph.Graph.Check
import RepoGraph.Graph.Decoding
import RepoGraph.Graph.Edge
import RepoGraph.Graph.Encoding
import RepoGraph.Graph.File
import RepoGraph.Graph.Names
import RepoGraph.Graph.Node
import RepoGraph.Graph.Tree
import RepoGraph.Http.Address
import RepoGraph.Http.Basic
import RepoGraph.Job.Archive
import RepoGraph.Job.Basic
import RepoGraph.Job.Lifecycle
import RepoGraph.Job.Store
import RepoGraph.Job.Time
import RepoGraph.Json.Basic
import RepoGraph.Json.Fault
import RepoGraph.Json.Reader
import RepoGraph.Json.Writer
import RepoGraph.Log.Event
import RepoGraph.Log.Line
import RepoGraph.Main
import RepoGraph.Path.Basic
import RepoGraph.Path.Role
import RepoGraph.Path.Selection
import RepoGraph.Program
import RepoGraph.Proofs.Analysis.Asked
import RepoGraph.Proofs.Analysis.Copy
import RepoGraph.Proofs.Analysis.Declined
import RepoGraph.Proofs.Analysis.Run
import RepoGraph.Proofs.Analysis.Stages
import RepoGraph.Proofs.Analysis.Token
import RepoGraph.Proofs.Asked
import RepoGraph.Proofs.Authorization
import RepoGraph.Proofs.Bucket
import RepoGraph.Proofs.Command.Answered
import RepoGraph.Proofs.Command.Explain
import RepoGraph.Proofs.Command.Invocation
import RepoGraph.Proofs.Command.LineRange
import RepoGraph.Proofs.Command.Sound
import RepoGraph.Proofs.Command.Words
import RepoGraph.Proofs.Decimal.Reading
import RepoGraph.Proofs.Document
import RepoGraph.Proofs.Explain.Ranking
import RepoGraph.Proofs.Explain.Summary
import RepoGraph.Proofs.Firsts
import RepoGraph.Proofs.Graph.Check
import RepoGraph.Proofs.Graph.Decoding
import RepoGraph.Proofs.Graph.Edge
import RepoGraph.Proofs.Graph.EdgeName
import RepoGraph.Proofs.Graph.Growth
import RepoGraph.Proofs.Graph.Hierarchy
import RepoGraph.Proofs.Graph.Leaf
import RepoGraph.Proofs.Graph.LeafOrder
import RepoGraph.Proofs.Graph.Missing
import RepoGraph.Proofs.Graph.Order
import RepoGraph.Proofs.Graph.RoundTrip
import RepoGraph.Proofs.Graph.Site
import RepoGraph.Proofs.Graph.Tree
import RepoGraph.Proofs.Http
import RepoGraph.Proofs.Interference
import RepoGraph.Proofs.Job.Calls
import RepoGraph.Proofs.Job.Claiming
import RepoGraph.Proofs.Job.Completion
import RepoGraph.Proofs.Job.Queue
import RepoGraph.Proofs.Job.Store
import RepoGraph.Proofs.Job.Tables
import RepoGraph.Proofs.Job.Turns
import RepoGraph.Proofs.Json.Number
import RepoGraph.Proofs.Json.Orderly
import RepoGraph.Proofs.Json.RoundTrip
import RepoGraph.Proofs.Json.Text
import RepoGraph.Proofs.Names
import RepoGraph.Proofs.Naming
import RepoGraph.Proofs.Path.Below
import RepoGraph.Proofs.Path.Extension
import RepoGraph.Proofs.Path.Role
import RepoGraph.Proofs.Path.Selection
import RepoGraph.Proofs.Program
import RepoGraph.Proofs.Reference.Extractor
import RepoGraph.Proofs.Reference.ImportLine
import RepoGraph.Proofs.Reference.Pattern
import RepoGraph.Proofs.Reference.Place
import RepoGraph.Proofs.Reference.Reach
import RepoGraph.Proofs.Reference.Rendering
import RepoGraph.Proofs.Reference.Search
import RepoGraph.Proofs.Reference.Statement
import RepoGraph.Proofs.Reference.Stem
import RepoGraph.Proofs.Repository.Parts
import RepoGraph.Proofs.Repository.Path
import RepoGraph.Proofs.Repository.Url
import RepoGraph.Proofs.Service
import RepoGraph.Proofs.Service.Waiting
import RepoGraph.Proofs.Session
import RepoGraph.Proofs.Settings.Dotenv
import RepoGraph.Proofs.Settings.Loading
import RepoGraph.Proofs.Sharing.Ledger
import RepoGraph.Proofs.Sharing.Rules
import RepoGraph.Proofs.Sharing.Scene
import RepoGraph.Proofs.Snapshot.Contents
import RepoGraph.Proofs.Snapshot.FileText
import RepoGraph.Proofs.Snapshot.Listing
import RepoGraph.Proofs.Snapshot.Replies
import RepoGraph.Proofs.Table
import RepoGraph.Proofs.Text.Ascii
import RepoGraph.Proofs.Text.Base64
import RepoGraph.Proofs.Text.Blank
import RepoGraph.Proofs.Text.Expression
import RepoGraph.Proofs.Text.Lines
import RepoGraph.Proofs.Text.Percent
import RepoGraph.Proofs.Text.Split
import RepoGraph.Proofs.Text.Utf8
import RepoGraph.Proofs.Worker
import RepoGraph.Proofs.World
import RepoGraph.Reference.Basic
import RepoGraph.Reference.Extractor
import RepoGraph.Reference.Pattern
import RepoGraph.Reference.Resolution
import RepoGraph.Repository.HostLiteral
import RepoGraph.Repository.Url
import RepoGraph.Service.Basic
import RepoGraph.Service.Waiting
import RepoGraph.Settings.Basic
import RepoGraph.Settings.Dotenv
import RepoGraph.Snapshot.Basic
import RepoGraph.Snapshot.GitHub
import RepoGraph.Table
import RepoGraph.Text.Base64
import RepoGraph.Text.Blank
import RepoGraph.Text.Case
import RepoGraph.Text.CaseTable
import RepoGraph.Text.DecimalDigit
import RepoGraph.Text.Expression
import RepoGraph.Text.Hex
import RepoGraph.Text.Lines
import RepoGraph.Text.Percent
import RepoGraph.Text.Printable
import RepoGraph.Text.Quoted
import RepoGraph.Text.Ranges
import RepoGraph.Text.Split
import RepoGraph.Text.Utf8
import RepoGraph.Worker
import RepoGraph.World.Basic
import RepoGraph.World.Dump
