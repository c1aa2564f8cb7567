import Flotilla.Command
import Flotilla.CommandLine.Grammar
import Flotilla.CommandLine.Options
import Flotilla.CommandLine.Program
import Flotilla.Defaults
import Flotilla.Deploy.Pipeline
import Flotilla.Deploy.Policy
import Flotilla.Deploy.Stage
import Flotilla.Deploy.Step
import Flotilla.Executor.Basic
import Flotilla.Executor.Handle
import Flotilla.Executor.Single
import Flotilla.Executor.Task
import Flotilla.Fault
import Flotilla.Files.Disk
import Flotilla.Files.Glob
import Flotilla.Files.Path
import Flotilla.Files.Tree
import Flotilla.Fleet.Basic
import Flotilla.Fleet.Roster
import Flotilla.Fleet.Variant
import Flotilla.Host.Behaviour
import Flotilla.Host.Endpoint
import Flotilla.Host.Exchange
import Flotilla.Host.SshConfig
import Flotilla.Json.Printer
import Flotilla.Json.Quoted
import Flotilla.Json.Reader
import Flotilla.Lifecycle.Controller
import Flotilla.Lifecycle.Phase
import Flotilla.Log
import Flotilla.Main
import Flotilla.Manifest
import Flotilla.Number.Basic
import Flotilla.Number.Binary64
import Flotilla.Number.Integer
import Flotilla.Probe
import Flotilla.Report.Basic
import Flotilla.Report.Document
import Flotilla.Report.Outcome
import Flotilla.Scratch
import Flotilla.Session
import Flotilla.Shell.Quote
import Flotilla.Shell.Words
import Flotilla.Table
import Flotilla.Template.Basic
import Flotilla.Template.Directive
import Flotilla.Template.Fault
import Flotilla.Template.Shown
import Flotilla.Text.Blank
import Flotilla.Text.Digit
import Flotilla.Text.Letter
import Flotilla.Text.Lines
import Flotilla.Text.Literal
import Flotilla.Text.Pattern
import Flotilla.Unit
import Flotilla.Value
import Flotilla.Yaml.Block
import Flotilla.Yaml.Folded
import Flotilla.Yaml.Node
import Flotilla.Yaml.Pen
import Flotilla.Yaml.Plain
import Flotilla.Yaml.Scalar
import Flotilla.Proofs.Report.Schedule
import Flotilla.Proofs.Host.Exchange
import Flotilla.Proofs.Host.Protocol
import Flotilla.Proofs.Session.Growth
import Flotilla.Proofs.Steps
import Flotilla.Proofs.Executor.FanOut
import Flotilla.Proofs.Executor.Barrier
import Flotilla.Proofs.Fleet.Keys
import Flotilla.Proofs.Lifecycle.Step
import Flotilla.Proofs.Lifecycle.History
import Flotilla.Proofs.Lifecycle.Order
import Flotilla.Proofs.Lifecycle.Rest
import Flotilla.Proofs.Report.Sheet
import Flotilla.Proofs.Report.Store
import Flotilla.Proofs.Session.Passage
import Flotilla.Proofs.Deploy.Rollout
import Flotilla.Proofs.Deploy.Course
import Flotilla.Proofs.Deploy.Account
import Flotilla.Proofs.Deploy.FailurePolicy
import Flotilla.Proofs.Deploy.Isolation
import Flotilla.Proofs.Executor.Issue
import Flotilla.Proofs.Lifecycle.Restart
import Flotilla.Proofs.Files.Disk
import Flotilla.Proofs.Deploy.Archives
import Flotilla.Proofs.Deploy.History
import Flotilla.Proofs.Lifecycle.Refusal
import Flotilla.Proofs.Executor.WriteOnce
import Flotilla.Proofs.Executor.Custody
import Flotilla.Proofs.Executor.Threads
import Flotilla.Proofs.Executor.Moves
import Flotilla.Proofs.Executor.Supervision
import Flotilla.Proofs.Executor.Errands
import Flotilla.Proofs.Lifecycle.Custody
import Flotilla.Proofs.CommandLine.Settings
import Flotilla.Proofs.Probe.Agreement
import Flotilla.Proofs.Text.Pieces
import Flotilla.Proofs.Fleet.Resolved
import Flotilla.Proofs.Shell.Line
import Flotilla.Proofs.Shell.Plain
import Flotilla.Proofs.Deploy.Directory
import Flotilla.Proofs.Deploy.Placement
import Flotilla.Proofs.Files.Home
import Flotilla.Proofs.Text.Filling
import Flotilla.Proofs.Unit.Settings
import Flotilla.Proofs.Shell.Login
import Flotilla.Proofs.Deploy.OnePlace
import Flotilla.Proofs.Files.Path
import Flotilla.Proofs.Shell.Chain
import Flotilla.Proofs.Unit.Override
import Flotilla.Proofs.Fleet.Pairing
import Flotilla.Proofs.Fleet.Turnover
import Flotilla.Proofs.Files.Tree
import Flotilla.Proofs.Files.Written
import Flotilla.Proofs.CommandLine.Checks
import Flotilla.Proofs.CommandLine.Action
import Flotilla.Proofs.CommandLine.Ending
import Flotilla.Proofs.CommandLine.Keeping
import Flotilla.Proofs.Executor.Issuing
import Flotilla.Proofs.Shell.Untouched
import Flotilla.Proofs.Deploy.Policies
import Flotilla.Proofs.Deploy.Appending
import Flotilla.Proofs.Number.Written
import Flotilla.Proofs.Files.Sound
import Flotilla.Proofs.Files.Folder
import Flotilla.Proofs.Files.Glob
import Flotilla.Proofs.Deploy.Prepared
import Flotilla.Proofs.Deploy.Sources
import Flotilla.Proofs.Files.Walk
import Flotilla.Proofs.Files.Unpack
import Flotilla.Proofs.Deploy.Contents
import Flotilla.Proofs.Fleet.Listed
import Flotilla.Proofs.Fleet.Sound
import Flotilla.Proofs.CommandLine.Scenario
import Flotilla.Proofs.Executor.Reasons
import Flotilla.Proofs.Report.Explained
import Flotilla.Proofs.CommandLine.Composed
import Flotilla.Proofs.Report.ReadBack
import Flotilla.Proofs.Manifest.ReadBack
import Flotilla.Proofs.Executor.Reaping
import Flotilla.Proofs.Precedence
import Flotilla.Proofs.Deploy.Stages
