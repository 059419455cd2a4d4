import Conduit.Bridge.Basic
import Conduit.Bridge.Call
import Conduit.Bridge.Session
import Conduit.Bridge.Shared
import Conduit.Channel.Basic
import Conduit.Channel.Desk
import Conduit.Command.Arguments
import Conduit.Command.Basic
import Conduit.Command.Messages
import Conduit.Command.Terminal
import Conduit.Config.Basic
import Conduit.Config.Document
import Conduit.Config.Files
import Conduit.Config.Wire
import Conduit.Decimal.Basic
import Conduit.Decimal.Shortest
import Conduit.Diagnostic
import Conduit.Engine.Basic
import Conduit.Engine.Behaviour
import Conduit.Engine.Bench
import Conduit.Engine.Playback
import Conduit.Engine.Run
import Conduit.Engine.Scripted
import Conduit.Error
import Conduit.Files
import Conduit.Gate
import Conduit.Json.Basic
import Conduit.Json.Decode
import Conduit.Json.Printer
import Conduit.Json.Reader
import Conduit.Log
import Conduit.Main
import Conduit.Output
import Conduit.Output.Wire
import Conduit.Proofs.Bridge.Account
import Conduit.Proofs.Bridge.Advance
import Conduit.Proofs.Bridge.Calls
import Conduit.Proofs.Bridge.Course
import Conduit.Proofs.Bridge.Deeds
import Conduit.Proofs.Bridge.Diagnosis
import Conduit.Proofs.Bridge.Failure
import Conduit.Proofs.Bridge.Fresh
import Conduit.Proofs.Bridge.Serial
import Conduit.Proofs.Bridge.Solo
import Conduit.Proofs.Bridge.Step
import Conduit.Proofs.Channel.Basic
import Conduit.Proofs.Channel.Calls
import Conduit.Proofs.Channel.Cancellation
import Conduit.Proofs.Channel.Erasure
import Conduit.Proofs.Channel.Ledger
import Conduit.Proofs.Channel.Queues
import Conduit.Proofs.Config.RoundTrip
import Conduit.Proofs.Decimal.Digits
import Conduit.Proofs.Engine.Serve
import Conduit.Proofs.Gate.History
import Conduit.Proofs.Script.Execution
import Conduit.Proofs.Scripted.Evaluation
import Conduit.Proofs.Scripted.LoneRun
import Conduit.Proofs.Toml.Lines
import Conduit.Proofs.Toml.Sections
import Conduit.Proofs.Toml.Strings
import Conduit.Script.Console
import Conduit.Script.Engine
import Conduit.Script.Eval
import Conduit.Script.Fault
import Conduit.Script.Grammar
import Conduit.Script.Lexer
import Conduit.Script.Literal
import Conduit.Script.Operation
import Conduit.Script.Parse
import Conduit.Script.Parser
import Conduit.Script.Position
import Conduit.Script.Run
import Conduit.Script.Symbol
import Conduit.Script.Syntax
import Conduit.Script.Token
import Conduit.Script.Value
import Conduit.Session.Basic
import Conduit.Session.Hub
import Conduit.Session.Wire
import Conduit.Text.Blank
import Conduit.Text.Lines
import Conduit.Text.Printable
import Conduit.Text.Quoted
import Conduit.Text.Utf8
import Conduit.Toml.Basic
import Conduit.Toml.Document
import Conduit.Toml.Fault
import Conduit.Toml.Reader
import Conduit.Toml.Scalar
import Conduit.Toml.Writer
import Conduit.Proofs.Script.Lifting
import Conduit.Proofs.Script.Natives
import Conduit.Proofs.Script.Sites
import Conduit.Proofs.Engine.Interpreter
import Conduit.Proofs.Engine.Lifecycle
import Conduit.Proofs.Bridge.Round
import Conduit.Proofs.Bridge.Transcript
import Conduit.Proofs.Engine.Journey
import Conduit.Proofs.Bridge.Orderly
import Conduit.Proofs.Bridge.Stream
import Conduit.Proofs.Bridge.Report
import Conduit.Proofs.Bridge.Life
import Conduit.Proofs.Bridge.Cancel
import Conduit.Proofs.Bridge.Schedule
import Conduit.Proofs.Bridge.Settling
import Conduit.Proofs.Bridge.Gates
import Conduit.Proofs.Bridge.Resuming
import Conduit.Proofs.Bridge.Supersede
import Conduit.Proofs.Json.Wire
import Conduit.Proofs.Command.Running
import Conduit.Proofs.Bridge.Speech
import Conduit.Proofs.Bridge.Subscription
import Conduit.Proofs.Text.Utf8
import Conduit.Proofs.Output.Rendering
import Conduit.Proofs.Files.Tree
import Conduit.Proofs.Config.Saving
import Conduit.Proofs.Toml.Pages
import Conduit.Proofs.Config.Validity
import Conduit.Proofs.Config.Partial
import Conduit.Proofs.Scripted.Grammar
import Conduit.Proofs.Bridge.Shared
import Conduit.Proofs.Bridge.Waiting
import Conduit.Proofs.Bridge.Replies
import Conduit.Proofs.Command.Events
import Conduit.Proofs.Command.Typing
import Conduit.Proofs.Text.Blank
import Conduit.Proofs.Decimal.Integers
import Conduit.Proofs.Script.Intake
import Conduit.Proofs.Bridge.Intake
