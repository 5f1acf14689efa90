import Migration.Text.Blank
import Migration.Text.Case
import Migration.Text.Digit
import Migration.Text.Printable
import Migration.Text.Quoted
import Migration.Text.Order
import Migration.Text.Split
import Migration.Number.Integer
import Migration.Number.Decimal
import Migration.Number.Binary64
import Migration.Number.Places
import Migration.Time.Calendar
import Migration.Time.Printer
import Migration.Time.Iso
import Migration.Time.Epoch
import Migration.Value.Printer
import Migration.Value.Truth
import Migration.Filter.Context
import Migration.Filter.Labels
import Migration.Filter.Database
import Migration.Value.Items
import Migration.Parameter.Table
import Migration.Record.Catalog
import Migration.Record.Basic
import Migration.Record.Registry
import Migration.Resource.Tree
import Migration.Resource.Encoding
import Migration.Properties
import Migration.Extension
import Migration.Json.Printer
import Migration.Json.Parser
import Migration.Document.Store
import Migration.Settings
import Migration.Script.Syntax
import Migration.Compile.Engine
import Migration.Script.Reader
import Migration.Compile.Session
import Migration.Compile.ChangeSet
import Migration.Inclusion.Include
import Migration.Inclusion.Statements
import Migration.Compile.Frame
import Migration.Compile.Vocabulary
import Migration.Compile.Perform
import Migration.Compile.Run
import Migration.Summary
import Migration.Log.Level
import Migration.Log.Entry
import Migration.CommandLine.Run
import Migration.Main
import Migration.Proofs.Filter.Syntax
import Migration.Proofs.Filter.Rejection
import Migration.Proofs.Step
import Migration.Proofs.Advance
import Migration.Proofs.Primitive
import Migration.Proofs.Element
import Migration.Proofs.Contribution
import Migration.Proofs.Script
import Migration.Proofs.Path
import Migration.Proofs.Point
import Migration.Proofs.Inclusion.Chain
import Migration.Proofs.Inclusion.Inheritance
import Migration.Proofs.Inclusion.Traversal
import Migration.Proofs.Inclusion.Order
import Migration.Proofs.Inclusion.Nesting
import Migration.Proofs.Inclusion.Preconditions
import Migration.Proofs.Failure.Calls
import Migration.Proofs.Failure.Containment
import Migration.Proofs.Failure.Misplaced
import Migration.Proofs.Failure.Refusal
import Migration.Proofs.Relocation.Scripts
import Migration.Proofs.Relocation.Completion
import Migration.Proofs.Inclusion.Independence
import Migration.Proofs.Discipline
import Migration.Proofs.Call
import Migration.Proofs.Placeholder
import Migration.Proofs.Entries
import Migration.Proofs.Rollback
import Migration.Proofs.Inclusion.Repetition
import Migration.Proofs.Record
import Migration.Proofs.Inclusion.Statements
import Migration.Proofs.Failure.Absence
import Migration.Proofs.Failure.Tolerance
import Migration.Proofs.Stability.Prefix
import Migration.Proofs.Pending
import Migration.Proofs.Parameter.Expansion
import Migration.Proofs.Parameter.Removal
import Migration.Proofs.Filter.Alternatives
import Migration.Proofs.Resource.Confinement
import Migration.Proofs.Inclusion.Scan
import Migration.Proofs.Attribute.Aspects
import Migration.Proofs.Attribute.Calls
import Migration.Proofs.Extension
import Migration.Proofs.Inclusion.Naming
import Migration.Proofs.Parameter.File
import Migration.Proofs.Attribute.Context
import Migration.Proofs.Record.Number
import Migration.Proofs.Properties.RoundTrip
import Migration.Proofs.Resource.Listing
import Migration.Proofs.Json
import Migration.Proofs.Log
import Migration.Proofs.Filter.Scanning
