import ReviewMentor.Ai.Client
import ReviewMentor.Analysis.Invoker
import ReviewMentor.Analysis.Outcome
import ReviewMentor.Analysis.Pipeline
import ReviewMentor.Analyzer
import ReviewMentor.Classify
import ReviewMentor.Cli.Arguments
import ReviewMentor.Cli.Commands
import ReviewMentor.Cli.Display
import ReviewMentor.Decimal.Binary
import ReviewMentor.Decimal.Shortest
import ReviewMentor.Files.Disk
import ReviewMentor.Files.Sweep
import ReviewMentor.Files.Tree
import ReviewMentor.Findings.Basic
import ReviewMentor.Findings.Record
import ReviewMentor.Fix
import ReviewMentor.Http.Form
import ReviewMentor.Http.MediaType
import ReviewMentor.Http.Message
import ReviewMentor.Issue
import ReviewMentor.Json.Basic
import ReviewMentor.Json.Decode
import ReviewMentor.Json.Draft
import ReviewMentor.Json.Numeral
import ReviewMentor.Json.Printer
import ReviewMentor.Json.Token
import ReviewMentor.Learner.Profile
import ReviewMentor.Learner.Store
import ReviewMentor.Level
import ReviewMentor.Machine.Script
import ReviewMentor.Machine.World
import ReviewMentor.Main
import ReviewMentor.Ordered
import ReviewMentor.Path
import ReviewMentor.Review
import ReviewMentor.Service.Analysis
import ReviewMentor.Service.Basic
import ReviewMentor.Service.Learning
import ReviewMentor.Service.Routes
import ReviewMentor.Sessions
import ReviewMentor.Settings.Basic
import ReviewMentor.Settings.Files
import ReviewMentor.Settings.Rules
import ReviewMentor.Shell.Arithmetic
import ReviewMentor.Shell.Format
import ReviewMentor.Shell.Pattern
import ReviewMentor.Shell.Programs
import ReviewMentor.Shell.Run
import ReviewMentor.Shell.State
import ReviewMentor.Shell.Syntax
import ReviewMentor.Shell.System
import ReviewMentor.Shell.Word
import ReviewMentor.Teaching.Explain
import ReviewMentor.Teaching.Prompt
import ReviewMentor.Teaching.Sanitize
import ReviewMentor.Teaching.Sections
import ReviewMentor.Teaching.Template
import ReviewMentor.Teaching.TemplateTable
import ReviewMentor.Text.Blank
import ReviewMentor.Text.Case
import ReviewMentor.Text.CaseTable
import ReviewMentor.Text.Letter
import ReviewMentor.Text.Split
import ReviewMentor.Text.Utf8
import ReviewMentor.Timestamp
import ReviewMentor.Toml.Basic
import ReviewMentor.Toml.Document
import ReviewMentor.Toml.Printer
import ReviewMentor.Toml.Scalar
import ReviewMentor.Zip.Archive
import ReviewMentor.Zip.Bzip2
import ReviewMentor.Zip.Checksum
import ReviewMentor.Zip.Code
import ReviewMentor.Zip.Directory
import ReviewMentor.Zip.Inflate
import ReviewMentor.Zip.Lzma
import ReviewMentor.Zip.LzmaAlone
import ReviewMentor.Zip.Names
import ReviewMentor.Zip.Record
import ReviewMentor.Zip.Sha256
import ReviewMentor.Zip.Stream
import ReviewMentor.Zip.Writer
import ReviewMentor.Zip.Xz
import ReviewMentor.Zip.Zstandard.Backward
import ReviewMentor.Zip.Zstandard.Digest
import ReviewMentor.Zip.Zstandard.Frame
import ReviewMentor.Zip.Zstandard.Literals
import ReviewMentor.Zip.Zstandard.Sequences
import ReviewMentor.Zip.Zstandard.States
import ReviewMentor.Proofs.Path.Parts
import ReviewMentor.Proofs.Files.Leading
import ReviewMentor.Proofs.Files.Passing
import ReviewMentor.Proofs.Files.Touching
import ReviewMentor.Proofs.Files.Children
import ReviewMentor.Proofs.Zip.Confinement
import ReviewMentor.Proofs.Sessions.Looks
import ReviewMentor.Proofs.Files.Found
import ReviewMentor.Proofs.Findings.Relative
import ReviewMentor.Proofs.Findings.Keys
import ReviewMentor.Proofs.Sessions.Places
import ReviewMentor.Proofs.Analysis.Configs
import ReviewMentor.Proofs.SideBySide
import ReviewMentor.Proofs.Files.Views
import ReviewMentor.Proofs.Sessions.Tidy
import ReviewMentor.Proofs.Sessions.Beside
import ReviewMentor.Proofs.Sessions.Housing
import ReviewMentor.Proofs.Sessions.Registry
import ReviewMentor.Proofs.Sessions.Orders
import ReviewMentor.Proofs.Analysis.Running
import ReviewMentor.Proofs.Analysis.Outcomes
import ReviewMentor.Proofs.Analysis.Composition
import ReviewMentor.Proofs.Service.Handlers
import ReviewMentor.Proofs.Service.Inside
import ReviewMentor.Proofs.Service.Uploads
import ReviewMentor.Proofs.Ai.Keys
import ReviewMentor.Proofs.Teaching.Phrases
import ReviewMentor.Proofs.Teaching.Borders
import ReviewMentor.Proofs.Teaching.Redaction
import ReviewMentor.Proofs.Teaching.Prompts
import ReviewMentor.Proofs.Files.Siblings
import ReviewMentor.Proofs.Learner.Storing
import ReviewMentor.Proofs.Sessions.Vacancy
import ReviewMentor.Proofs.Service.Refusals
import ReviewMentor.Proofs.Files.Sound
import ReviewMentor.Proofs.Files.Contents
import ReviewMentor.Proofs.Zip.Unpacking
import ReviewMentor.Proofs.Analysis.Apart
import ReviewMentor.Proofs.Http.Forms
import ReviewMentor.Proofs.Service.Edits
import ReviewMentor.Proofs.Service.Projects
import ReviewMentor.Proofs.Sorted
import ReviewMentor.Proofs.Json.Tokens
import ReviewMentor.Proofs.Json.Written
import ReviewMentor.Proofs.Json.Records
import ReviewMentor.Proofs.Json.Forms
import ReviewMentor.Proofs.Service.Posting
import ReviewMentor.Proofs.Analysis.Worker
import ReviewMentor.Proofs.Analysis.GivingUp
import ReviewMentor.Proofs.Analysis.Expiry
import ReviewMentor.Proofs.Service.Desk
import ReviewMentor.Proofs.Service.Overlap
import ReviewMentor.Proofs.Timestamp.Calendar
import ReviewMentor.Proofs.Files.Room
import ReviewMentor.Proofs.Learner.Ledger
import ReviewMentor.Proofs.Learner.History
import ReviewMentor.Proofs.Service.Origins
import ReviewMentor.Proofs.Service.Reviewed
import ReviewMentor.Proofs.Files.Paving
import ReviewMentor.Proofs.Zip.Marks
import ReviewMentor.Proofs.Zip.Restoring
import ReviewMentor.Proofs.Zip.Exporting
import ReviewMentor.Proofs.Text.Lines
import ReviewMentor.Proofs.Fixes.Replacing
import ReviewMentor.Proofs.Fixes.OneLine
import ReviewMentor.Proofs.Fixes.Together
import ReviewMentor.Proofs.Text.Trimming
import ReviewMentor.Proofs.Teaching.Headings
import ReviewMentor.Proofs.Teaching.Answers
import ReviewMentor.Proofs.Findings.Fields
import ReviewMentor.Proofs.Json.Parsed
import ReviewMentor.Proofs.Findings.Normalized
import ReviewMentor.Proofs.Teaching.Stencils
import ReviewMentor.Proofs.Json.Literals
import ReviewMentor.Proofs.Findings.Encoded
import ReviewMentor.Proofs.Files.Sweeping
import ReviewMentor.Proofs.Text.Lowering
import ReviewMentor.Proofs.Classification
import ReviewMentor.Proofs.Toml.Strings
import ReviewMentor.Proofs.Toml.Tables
import ReviewMentor.Proofs.Settings.Ini
import ReviewMentor.Proofs.Settings.RuleFiles
import ReviewMentor.Proofs.Cli.Listings
