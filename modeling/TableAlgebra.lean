import TableAlgebra.Main
import TableAlgebra.Proofs.Algebra.Admission
import TableAlgebra.Proofs.Algebra.Contiguous
import TableAlgebra.Proofs.Algebra.Counted
import TableAlgebra.Proofs.Algebra.Join
import TableAlgebra.Proofs.Algebra.Ordered
import TableAlgebra.Proofs.Algebra.Outer
import TableAlgebra.Proofs.Algebra.Product
import TableAlgebra.Proofs.Algebra.Pushed
import TableAlgebra.Proofs.Algebra.Reference
import TableAlgebra.Proofs.Algebra.Renumbered
import TableAlgebra.Proofs.Algebra.Selected
import TableAlgebra.Proofs.Algebra.Sound
import TableAlgebra.Proofs.Algebra.Stable
import TableAlgebra.Proofs.Algebra.Swapped
import TableAlgebra.Proofs.Cell.Order
import TableAlgebra.Proofs.Command.Blanks
import TableAlgebra.Proofs.Command.Grammar
import TableAlgebra.Proofs.Command.Lexemes
import TableAlgebra.Proofs.Command.Numerals
import TableAlgebra.Proofs.Command.Quoting
import TableAlgebra.Proofs.Command.Reading
import TableAlgebra.Proofs.Command.Relaid
import TableAlgebra.Proofs.Command.Statements
import TableAlgebra.Proofs.Command.Traced
import TableAlgebra.Proofs.Command.Written
import TableAlgebra.Proofs.Json.Identity
import TableAlgebra.Proofs.Outcome
import TableAlgebra.Proofs.Runs.Mapped
import TableAlgebra.Proofs.Session.Effect
import TableAlgebra.Proofs.Session.Frame
import TableAlgebra.Proofs.Session.Independent
import TableAlgebra.Proofs.Session.Names
import TableAlgebra.Proofs.Session.Quoted
import TableAlgebra.Proofs.Session.Reachable
import TableAlgebra.Proofs.Session.SaveLoad
import TableAlgebra.Proofs.Session.Script
import TableAlgebra.Proofs.Session.Unreported
import TableAlgebra.Proofs.Shell.Batch
import TableAlgebra.Proofs.Shell.Lines
import TableAlgebra.Proofs.Shell.Printed
import TableAlgebra.Proofs.Storage.Accepted
import TableAlgebra.Proofs.Storage.Files
import TableAlgebra.Proofs.Storage.Kept
import TableAlgebra.Proofs.Storage.Loaded
import TableAlgebra.Proofs.Storage.Written
import TableAlgebra.Proofs.Table.Aligned
import TableAlgebra.Proofs.Table.Changes
import TableAlgebra.Proofs.Table.Sorted
import TableAlgebra.Proofs.Table.Sound
import TableAlgebra.Proofs.Text.Decimal
import TableAlgebra.Proofs.Text.Pieces
import TableAlgebra.Proofs.Text.Scalar
import TableAlgebra.Proofs.Unreported
import TableAlgebra.Proofs.Web.Served
import TableAlgebra.Proofs.Web.Upload
import TableAlgebra.Web
