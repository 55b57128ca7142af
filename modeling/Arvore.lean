import Arvore.CommandLine.Run
import Arvore.Compilation
import Arvore.Main
import Arvore.Program.Tree
import Arvore.Proofs.Analysis.Tiling
import Arvore.Proofs.Calling.Agreement
import Arvore.Proofs.Code.Balance
import Arvore.Proofs.Code.Names
import Arvore.Proofs.Compilation
import Arvore.Proofs.Lines.Independence
import Arvore.Proofs.Reading.Grammar
import Arvore.Proofs.RoundTrip
import Arvore.Proofs.Typing.Acceptance
import Arvore.Suite.Case
import Arvore.Text.Utf8
import Arvore.Tree.Render
import Arvore.Proofs.CommandLine
import Arvore.Proofs.Relabelling.Analysis
import Arvore.Proofs.Relabelling.Code
import Arvore.Proofs.Relabelling.Order
import Arvore.Proofs.Relabelling.Names
import Arvore.Proofs.Simulation.Value
import Arvore.Proofs.Simulation.Narrow
import Arvore.Proofs.Code.Access
import Arvore.Proofs.Numeral.Literal
import Arvore.Proofs.Program.Shape
import Arvore.Proofs.Analysis.Positions
import Arvore.Proofs.Assembly.Quoted
import Arvore.Proofs.Load.Inheritance
import Arvore.Proofs.Load.Spelling
import Arvore.Proofs.Numeral.Rounding
import Arvore.Proofs.Numeral.Shortest
import Arvore.Proofs.Numeral.Written
import Arvore.Proofs.Assembly.Requests
import Arvore.Proofs.Numeral.Pooling
import Arvore.Proofs.Assembly.Allotment
import Arvore.Proofs.Symbol.Steps
import Arvore.Proofs.Suite.Cases
import Arvore.Proofs.Code.Alignment
import Arvore.Proofs.Typing.Phases
import Arvore.Proofs.Reading.Offsets
import Arvore.Proofs.Reading.Cursor
import Arvore.Proofs.Reading.Descent
import Arvore.Proofs.Reading.Metadata
import Arvore.Proofs.Indexed
