import Stencil.Comment.Range
import Stencil.Main
import Stencil.Proofs.Comment.Parts
import Stencil.Text.Offset
import Stencil.Proofs.Comment.Scan
import Stencil.Proofs.Document.Location
import Stencil.Proofs.Document.MarkerLine
import Stencil.Proofs.Document.Bytes
import Stencil.Proofs.Marker.Tag
import Stencil.Proofs.Marker.Fault
import Stencil.Proofs.Marker.Entity
import Stencil.Proofs.Config.Tag
import Stencil.Proofs.Document.Shift
import Stencil.Proofs.Generation.Shift
import Stencil.Proofs.Document.Written
import Stencil.Proofs.Document.Layout
import Stencil.Proofs.Expansion.Assembler
import Stencil.Proofs.Table.Fields
import Stencil.Proofs.Table.Written
import Stencil.Proofs.Generation.File
import Stencil.Proofs.CommandLine.Generate
import Stencil.Proofs.CommandLine.Isolation
import Stencil.Proofs.Table.Fault
import Stencil.Proofs.Document.Place
import Stencil.Proofs.Generation.Fault
import Stencil.Proofs.Expansion.Origin
import Stencil.Proofs.Generation.Mark
import Stencil.Proofs.Text.Bytes
import Stencil.Proofs.Expansion.Word
import Stencil.Proofs.Expansion.Column
import Stencil.Proofs.Expansion.Separator
import Stencil.Proofs.Table.Reading
import Stencil.Proofs.Table.Escape
import Stencil.Proofs.Marker.Reference
import Stencil.Proofs.Document.Indent
import Stencil.Proofs.CommandLine.Check
import Stencil.Proofs.Comment.Bytes
import Stencil.Proofs.Document.Search
import Stencil.Proofs.Document.Adjacent
import Stencil.Proofs.Generation.Opening
import Stencil.Proofs.Text.LineTable
