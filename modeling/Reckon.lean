import Reckon.CommandLine.Run
import Reckon.Main
import Reckon.Proofs.Grammar
import Reckon.Proofs.Forms
import Reckon.Proofs.Parsing
import Reckon.Proofs.Denotation
import Reckon.Proofs.Prefix
import Reckon.Proofs.Diagnosis
import Reckon.Proofs.Failures
import Reckon.Proofs.Scanning
import Reckon.Proofs.Positions
import Reckon.Proofs.Answers
import Reckon.Proofs.Exactness
import Reckon.Proofs.Outcomes
import Reckon.Proofs.Precedence
import Reckon.Proofs.Nesting
import Reckon.Proofs.Spots
import Reckon.Proofs.Substitution
import Reckon.Proofs.Numerals
import Reckon.Proofs.Words
import Reckon.Proofs.Division
import Reckon.Proofs.Writing
import Reckon.Proofs.Telling
import Reckon.Proofs.Printing
import Reckon.Proofs.Room
import Reckon.Proofs.FirstFailure
import Reckon.Proofs.Callers
import Reckon.Proofs.Finiteness
import Reckon.Proofs.Growth
import Reckon.Proofs.Sessions
import Reckon.Proofs.Widening
import Reckon.Proofs.Projections
import Reckon.Proofs.Endings
import Reckon.Proofs.Relabelling
import Reckon.Proofs.Layout
import Reckon.Proofs.Histories
import Reckon.Proofs.Spacing
import Reckon.Proofs.Locality
import Reckon.Proofs.Conservation
import Reckon.Proofs.Names
import Reckon.Proofs.Remainders
import Reckon.Proofs.IntegerText
import Reckon.Proofs.Signs
import Reckon.Proofs.Registration
import Reckon.Proofs.Visits
import Reckon.Proofs.Stepping
import Reckon.Proofs.Progress
import Reckon.Proofs.Grid
import Reckon.Proofs.Nearest
import Reckon.Proofs.Places
