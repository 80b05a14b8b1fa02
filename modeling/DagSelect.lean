import DagSelect.ValueType.Derived
import DagSelect.ValueType.Read
import DagSelect.Dag.Edit
import DagSelect.Dag.Print
import DagSelect.Dag.Read
import DagSelect.Log
import DagSelect.Pattern.Match
import DagSelect.Pattern.Table
import DagSelect.Session
import DagSelect.Selection.Run
import DagSelect.Z80.Target
import DagSelect.Main
import DagSelect.Proofs.Computation
import DagSelect.Proofs.Graph
import DagSelect.Proofs.UseCounts
import DagSelect.Proofs.Matching
import DagSelect.Proofs.Ranking
import DagSelect.Proofs.Visit
import DagSelect.Proofs.Turn
import DagSelect.Proofs.Step
import DagSelect.Proofs.Outline
import DagSelect.Proofs.Reached
import DagSelect.Proofs.Accounting
import DagSelect.Proofs.Text
import DagSelect.Proofs.Reading
import DagSelect.Proofs.Z80.Table
import DagSelect.Proofs.Z80.Templates
import DagSelect.Proofs.Completeness
import DagSelect.Proofs.Refusal
import DagSelect.Proofs.Liveness
import DagSelect.Proofs.Meaning
import DagSelect.Proofs.Typing
import DagSelect.Proofs.Z80.Meaning
import DagSelect.Proofs.Z80.Soundness
import DagSelect.Proofs.Z80.Interpretation
import DagSelect.Proofs.Z80.Preservation
import DagSelect.Proofs.Finding
import DagSelect.Proofs.Advance
import DagSelect.Proofs.View
import DagSelect.Proofs.Stage
import DagSelect.Proofs.Fate
import DagSelect.Proofs.Foresight
import DagSelect.Proofs.Z80.Faults
import DagSelect.Proofs.Z80.Progress
import DagSelect.Proofs.Z80.Availability
import DagSelect.Proofs.TypeNames
import DagSelect.Proofs.Payload
import DagSelect.Proofs.Order
import DagSelect.Proofs.Search
import DagSelect.Proofs.Writable
import DagSelect.Proofs.Lines
import DagSelect.Proofs.Printing
import DagSelect.Proofs.Z80.RoundTrip
import DagSelect.Proofs.Reselection
import DagSelect.Proofs.Z80.Features
import DagSelect.Proofs.Z80.OrderIndependence
import DagSelect.Proofs.Acyclicity
import DagSelect.Proofs.Frame
import DagSelect.Proofs.Interning
import DagSelect.Proofs.LineReading
import DagSelect.Proofs.FromText
import DagSelect.Proofs.Ambiguity
import DagSelect.Proofs.Naming
import DagSelect.Proofs.WidthRange
import DagSelect.Proofs.RefusedEdits
import DagSelect.Proofs.Precedence
import DagSelect.Proofs.IntegerTypes
import DagSelect.Proofs.AddressSums
import DagSelect.Proofs.Lasting
import DagSelect.Proofs.FoldedNumbers
import DagSelect.Proofs.StoredConstants
import DagSelect.Proofs.Literals
import DagSelect.Proofs.Z80.Triples
import DagSelect.Proofs.Report
