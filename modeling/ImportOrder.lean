import ImportOrder.Command.Run
import ImportOrder.Main
import ImportOrder.Proofs.Declarations
import ImportOrder.Proofs.Gaps
import ImportOrder.Proofs.Lines
import ImportOrder.Proofs.Outline
import ImportOrder.Proofs.Slices
import ImportOrder.Proofs.Tiling
import ImportOrder.Proofs.Contents
import ImportOrder.Proofs.EditedSource
import ImportOrder.Proofs.FixedPoint
import ImportOrder.Proofs.Preservation
import ImportOrder.Proofs.CanonicalRuns
import ImportOrder.Proofs.DeclarationForms
import ImportOrder.Proofs.Faults
import ImportOrder.Proofs.Nesting
import ImportOrder.Proofs.Header
import ImportOrder.Proofs.CanonicalFiles
import ImportOrder.Proofs.Opacity
import ImportOrder.Proofs.Files
import ImportOrder.Proofs.Effects
import ImportOrder.Proofs.Stages
import ImportOrder.Proofs.Rewriting
import ImportOrder.Proofs.Independence
import ImportOrder.Proofs.Containment
import ImportOrder.Proofs.Arrangement
import ImportOrder.Proofs.Layering
import ImportOrder.Proofs.JsonReading
import ImportOrder.Proofs.Reports
import ImportOrder.Proofs.Frame
import ImportOrder.Proofs.Leniency
import ImportOrder.Proofs.Positions
import ImportOrder.Proofs.LineEndings
import ImportOrder.Proofs.Uniqueness
import ImportOrder.Proofs.Truncation
import ImportOrder.Proofs.BracedLiterals
import ImportOrder.Proofs.StandardInput
import ImportOrder.Proofs.WhiteSpace
import ImportOrder.Proofs.Validation
import ImportOrder.Proofs.FrontPaths
import ImportOrder.Proofs.LogStore
import ImportOrder.Proofs.Discovery
import ImportOrder.Proofs.SourceWalk
import ImportOrder.Proofs.TornComments
import ImportOrder.Proofs.Progress
import ImportOrder.Proofs.PathOrder
import ImportOrder.Proofs.LineTable
