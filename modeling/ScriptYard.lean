import ScriptYard.Time.Instant
import ScriptYard.Script.Comparison
import ScriptYard.Script.Variables
import ScriptYard.Script.Definition
import ScriptYard.Document.Node
import ScriptYard.Json.Reader
import ScriptYard.Json.Writer
import ScriptYard.Yaml.ScalarText
import ScriptYard.Yaml.Tree
import ScriptYard.Yaml.Writer
import ScriptYard.Engine.Settings
import ScriptYard.Output.Format
import ScriptYard.Script.Parse
import ScriptYard.Command.Configuration
import ScriptYard.Run.Report
import ScriptYard.Script.Validation
import ScriptYard.Run.Interpreter
import ScriptYard.Capability.Registry
import ScriptYard.Queue.GroupQueue
import ScriptYard.Text.Utf8
import ScriptYard.Shell.Printf
import ScriptYard.Shell.Evaluation
import ScriptYard.Capability.Shell
import ScriptYard.Rehearsal.Solo
import ScriptYard.Run.Live
import ScriptYard.Engine.Watchdog
import ScriptYard.Run.Later
import ScriptYard.Engine.Groups
import ScriptYard.Engine.Runs
import ScriptYard.Rehearsal.Session
import ScriptYard.Value.Lookup
import ScriptYard.Rehearsal.Description
import ScriptYard.Command.Perform
import ScriptYard.Main
import ScriptYard.Proofs.Value.Fields
import ScriptYard.Proofs.Document.Values
import ScriptYard.Proofs.Script.Ranges
import ScriptYard.Proofs.Script.RoundTrip
import ScriptYard.Proofs.Script.Library
import ScriptYard.Proofs.Script.References
import ScriptYard.Proofs.Queue.Operations
import ScriptYard.Proofs.Queue.Conservation
import ScriptYard.Proofs.Queue.ServiceOrder
import ScriptYard.Proofs.Run.Guarded
import ScriptYard.Proofs.Run.Course
import ScriptYard.Proofs.Run.Cancellation
import ScriptYard.Proofs.Run.Endings
import ScriptYard.Proofs.Run.Sequence
import ScriptYard.Proofs.Run.Accounts
import ScriptYard.Proofs.Run.Failures
import ScriptYard.Proofs.Run.Registries
import ScriptYard.Proofs.Run.Validity
import ScriptYard.Proofs.Queue.Events
import ScriptYard.Proofs.Queue.Lives
import ScriptYard.Proofs.Run.Pieces
import ScriptYard.Proofs.Run.Frame
import ScriptYard.Proofs.Run.Independence
import ScriptYard.Proofs.Queue.Settlement
import ScriptYard.Proofs.Run.Outcomes
import ScriptYard.Proofs.Run.Lulls
import ScriptYard.Proofs.Run.Images
import ScriptYard.Proofs.Yard.Moves
import ScriptYard.Proofs.Yard.Places
import ScriptYard.Proofs.Yard.Order
import ScriptYard.Proofs.Yard.Cancellation
import ScriptYard.Proofs.Yard.Exclusion
import ScriptYard.Proofs.Yard.Operations
import ScriptYard.Proofs.Yard.Removal
import ScriptYard.Proofs.Yard.Refusals
import ScriptYard.Proofs.Yard.Catalog
import ScriptYard.Proofs.Yard.Serving
import ScriptYard.Proofs.Yard.Strides
import ScriptYard.Proofs.Yard.Shutdown
import ScriptYard.Proofs.Yard.Attendance
import ScriptYard.Proofs.Yard.Handlers
import ScriptYard.Proofs.Yard.Sweep
import ScriptYard.Proofs.Yard.Ticks
import ScriptYard.Proofs.Script.Spellings
import ScriptYard.Proofs.Script.UnknownKinds
import ScriptYard.Proofs.Queue.Backoff
import ScriptYard.Proofs.Run.Echoes
import ScriptYard.Proofs.Run.Unrolling
import ScriptYard.Proofs.Number.Rounding
import ScriptYard.Proofs.Queue.Exponential
import ScriptYard.Proofs.Queue.Records
import ScriptYard.Proofs.Queue.Refusals
import ScriptYard.Proofs.Queue.History
import ScriptYard.Proofs.Queue.Draining
import ScriptYard.Proofs.Script.Resolution
import ScriptYard.Proofs.Run.Chronicle
import ScriptYard.Proofs.Number.Nearest
import ScriptYard.Proofs.Script.StallWarnings
import ScriptYard.Proofs.Value.Comparison
import ScriptYard.Proofs.Yaml.Scanning
import ScriptYard.Proofs.Yaml.Words
import ScriptYard.Proofs.Yaml.Quotes
import ScriptYard.Proofs.Yaml.Literals
import ScriptYard.Proofs.Yaml.Marks
import ScriptYard.Proofs.Yaml.Brackets
import ScriptYard.Proofs.Yaml.Layout
import ScriptYard.Proofs.Yaml.Trees
import ScriptYard.Proofs.Yaml.Outlines
import ScriptYard.Proofs.Yaml.Leaves
import ScriptYard.Proofs.Document.Entries
import ScriptYard.Proofs.Command.Templates
import ScriptYard.Proofs.Yaml.Styles
import ScriptYard.Proofs.Yaml.Keys
import ScriptYard.Proofs.Yaml.Values
import ScriptYard.Proofs.Yaml.Pages
import ScriptYard.Proofs.Yaml.Endings
import ScriptYard.Proofs.Yaml.Remnants
import ScriptYard.Proofs.Document.Direct
import ScriptYard.Proofs.Output.Rendering
