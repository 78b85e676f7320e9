import Bytewise.Cursor.Search
import Bytewise.Grammar.Build
import Bytewise.Outcome
import Bytewise.Parser.Lemmas
import Bytewise.Proofs.Acceptance
import Bytewise.Proofs.Bracketing
import Bytewise.Proofs.Choice
import Bytewise.Proofs.Confinement
import Bytewise.Proofs.Congruence
import Bytewise.Proofs.Consuming
import Bytewise.Proofs.Ending
import Bytewise.Proofs.Entry
import Bytewise.Proofs.Faults
import Bytewise.Proofs.Fuel
import Bytewise.Proofs.Greedy
import Bytewise.Proofs.Guard
import Bytewise.Proofs.HeaderLines
import Bytewise.Proofs.Infallible
import Bytewise.Proofs.Layer
import Bytewise.Proofs.Library
import Bytewise.Proofs.Lossless
import Bytewise.Proofs.Moves
import Bytewise.Proofs.NestedList
import Bytewise.Proofs.Nesting
import Bytewise.Proofs.Peg.Completeness
import Bytewise.Proofs.Peg.Semantics
import Bytewise.Proofs.Peg.Soundness
import Bytewise.Proofs.Reads
import Bytewise.Proofs.Scans
import Bytewise.Proofs.Sequencing
import Bytewise.Proofs.Slices
import Bytewise.Proofs.Suffix
import Bytewise.Proofs.Termination
import Bytewise.Proofs.Transparency
import Bytewise.Proofs.Unfolding
import Bytewise.Proofs.WriteOnce
import Bytewise.Value.Transform
import Bytewise.Workbench
