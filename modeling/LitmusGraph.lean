import LitmusGraph.Log.Session
import LitmusGraph.Main
import LitmusGraph.Payload.Writer
import LitmusGraph.Proofs.Drawing.Reading
import LitmusGraph.Proofs.Drawing.Unambiguous
import LitmusGraph.Proofs.Drawing.Multiplicity
import LitmusGraph.Proofs.Drawing.Boxes
import LitmusGraph.Proofs.Drawing.WellFormed
import LitmusGraph.Proofs.Drawing.Anchors
import LitmusGraph.Proofs.Viewer.Session
import LitmusGraph.Proofs.FileTree.Following
import LitmusGraph.Proofs.FileTree.Writing
import LitmusGraph.Proofs.Layout.Export
import LitmusGraph.Proofs.CommandLine.Delivery
import LitmusGraph.Proofs.Text.Utf8
import LitmusGraph.Proofs.Payload.Language
import LitmusGraph.Proofs.Payload.Loading
import LitmusGraph.Proofs.Payload.Location
import LitmusGraph.Proofs.Payload.KeyOrder
import LitmusGraph.Proofs.CommandLine.Plan
import LitmusGraph.Proofs.CommandLine.Trace
import LitmusGraph.Proofs.CommandLine.ExitCode
import LitmusGraph.Proofs.CommandLine.Frame
import LitmusGraph.Proofs.CommandLine.Image
import LitmusGraph.Proofs.CommandLine.ReadOnly
import LitmusGraph.Proofs.Options.Paths
import LitmusGraph.Proofs.CommandLine.HandOver
import LitmusGraph.Proofs.Log.InStep
import LitmusGraph.Proofs.Log.Session
import LitmusGraph.Proofs.CommandLine.Verbosity
import LitmusGraph.Proofs.Payload.RoundTrip
import LitmusGraph.Proofs.Payload.NodeLines
import LitmusGraph.Proofs.Drawing.Interleaving
import LitmusGraph.Proofs.Viewer.Toggle
import LitmusGraph.Proofs.Viewer.Transcript
import LitmusGraph.Proofs.Json.LineEnds
import LitmusGraph.Proofs.Payload.LineEnds
import LitmusGraph.Proofs.Payload.Limits
import LitmusGraph.Proofs.Execution.EdgeCounts
import LitmusGraph.Proofs.Drawing.SameNames
import LitmusGraph.Proofs.Drawing.LineCount
import LitmusGraph.Proofs.Drawing.DrawList
import LitmusGraph.Proofs.Drawing.EdgeCounts
