import ResourceLiterals.Log.Style
import ResourceLiterals.Proofs.Encoding.Batch
import ResourceLiterals.Proofs.Encoding.Selection
import ResourceLiterals.Proofs.Layout.Concatenation
import ResourceLiterals.Proofs.Layout.FlatRun
import ResourceLiterals.Proofs.Layout.Interchange
import ResourceLiterals.Proofs.Layout.Loops
import ResourceLiterals.Proofs.Layout.RealColumn
import ResourceLiterals.Proofs.Layout.Widening
import ResourceLiterals.Proofs.Literal.FaultPlace
import ResourceLiterals.Proofs.Literal.HexLayout
import ResourceLiterals.Proofs.Literal.LineBudget
import ResourceLiterals.Proofs.Literal.LineCount
import ResourceLiterals.Proofs.Literal.SourceText
import ResourceLiterals.Proofs.Log.Threshold
import ResourceLiterals.Proofs.Settings.Layers
import ResourceLiterals.Proofs.Settings.Load
import ResourceLiterals.Proofs.Settings.Mistakes
import ResourceLiterals.Proofs.Subformat.IntegerRoundTrip
import ResourceLiterals.Proofs.Subformat.LineRoundTrip
import ResourceLiterals.Text.Shortest
