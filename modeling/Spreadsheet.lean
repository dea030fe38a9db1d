import Spreadsheet.CommandLine
import Spreadsheet.Content
import Spreadsheet.Engine.Basic
import Spreadsheet.Engine.Command
import Spreadsheet.Evaluation
import Spreadsheet.Formula.Layout
import Spreadsheet.Formula.Parse
import Spreadsheet.Formula.Scan
import Spreadsheet.Function.Builtin
import Spreadsheet.Graph.Components
import Spreadsheet.Graph.Dependencies
import Spreadsheet.Graph.Plan
import Spreadsheet.Graph.Search
import Spreadsheet.Grid.Address
import Spreadsheet.Grid.Location
import Spreadsheet.Main
import Spreadsheet.Number.Basic
import Spreadsheet.Number.Decimal
import Spreadsheet.Number.Shortest
import Spreadsheet.Proofs.Engine.Commands
import Spreadsheet.Proofs.Engine.Consistency
import Spreadsheet.Proofs.Engine.Entries
import Spreadsheet.Proofs.Engine.History
import Spreadsheet.Proofs.Engine.Links
import Spreadsheet.Proofs.Engine.Pass
import Spreadsheet.Proofs.Engine.Store
import Spreadsheet.Proofs.Evaluation.Agreement
import Spreadsheet.Proofs.Evaluation.Numbers
import Spreadsheet.Proofs.Formula.Resolution
import Spreadsheet.Proofs.Formula.Traversal
import Spreadsheet.Proofs.Graph.Components
import Spreadsheet.Proofs.Graph.Dependencies
import Spreadsheet.Proofs.Graph.Plan
import Spreadsheet.Proofs.Graph.Reachability
import Spreadsheet.Proofs.Grid.Address
import Spreadsheet.Script
import Spreadsheet.Sheets
import Spreadsheet.Text.Basic
import Spreadsheet.Text.Case
import Spreadsheet.Text.Letters
import Spreadsheet.Value.Order
import Spreadsheet.Proofs.Engine.Changes
import Spreadsheet.Proofs.Engine.Reads
import Spreadsheet.Proofs.Engine.Frame
import Spreadsheet.Proofs.Engine.Rest
import Spreadsheet.Proofs.Formula.Grammar
import Spreadsheet.Proofs.Number.Rounding
import Spreadsheet.Proofs.Number.Text
import Spreadsheet.Proofs.Grid.Text
import Spreadsheet.Proofs.Formula.Tokens
import Spreadsheet.Proofs.Formula.Canonical
import Spreadsheet.Proofs.Formula.Derivation
import Spreadsheet.Proofs.Formula.Height
import Spreadsheet.Proofs.Evaluation.Depth
import Spreadsheet.Proofs.Evaluation.Errors
import Spreadsheet.Proofs.Graph.Buckets
import Spreadsheet.Proofs.Engine.Finite
import Spreadsheet.Proofs.Engine.Faults
import Spreadsheet.Proofs.Engine.Repair
import Spreadsheet.Proofs.Evaluation.Truncation
import Spreadsheet.Engine.Procedure
import Spreadsheet.Proofs.Engine.Refusals
import Spreadsheet.Proofs.Grid.Spelling
import Spreadsheet.Proofs.Evaluation.Contract
import Spreadsheet.Proofs.Engine.Registration
import Spreadsheet.Proofs.Engine.Sheets
import Spreadsheet.Proofs.Formula.Relocation
import Spreadsheet.Proofs.Formula.Reference
import Spreadsheet.Proofs.Grid.Names
import Spreadsheet.Proofs.Grid.Qualified
import Spreadsheet.Proofs.Script
import Spreadsheet.Proofs.Formula.Addresses
import Spreadsheet.Proofs.Evaluation.Comparison
import Spreadsheet.Proofs.Evaluation.ShortCircuit
import Spreadsheet.Proofs.Evaluation.Splitting
import Spreadsheet.Proofs.Formula.Tiling
import Spreadsheet.Proofs.Formula.Positions
import Spreadsheet.Proofs.Formula.Numerals
import Spreadsheet.Graph.LowLink
import Spreadsheet.Proofs.Graph.LowLink
import Spreadsheet.Proofs.Graph.StronglyConnected
import Spreadsheet.Formula.Descent
import Spreadsheet.Proofs.Formula.Descent
import Spreadsheet.Formula.Visit
import Spreadsheet.Proofs.Formula.Places
import Spreadsheet.Proofs.Evaluation.Blocks
import Spreadsheet.Function.Inquiry
import Spreadsheet.Proofs.Evaluation.Inquiry
import Spreadsheet.Function.Inquiry
import Spreadsheet.Proofs.Evaluation.Inquiry
