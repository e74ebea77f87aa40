import Runbook.Main
import Runbook.Log.Template
import Runbook.Proofs.Reachability
import Runbook.Proofs.Validity
import Runbook.Proofs.Pseudostates
import Runbook.Proofs.Operations
import Runbook.Proofs.Turns
import Runbook.Proofs.Calls
import Runbook.Proofs.Coherence
import Runbook.Proofs.Orderly
import Runbook.Proofs.Documents
import Runbook.Proofs.Deadlock
import Runbook.Proofs.Occupancy
import Runbook.Proofs.Tally
import Runbook.Proofs.Visits
import Runbook.Proofs.Endpoints
import Runbook.Proofs.Unbroken
import Runbook.Proofs.Lifecycle
import Runbook.Proofs.Entries
import Runbook.Proofs.Settling
import Runbook.Proofs.Agenda
import Runbook.Proofs.Chronicle
import Runbook.Proofs.Drafting
import Runbook.Proofs.SingleToken
import Runbook.Proofs.Twins
import Runbook.Proofs.Suspension
import Runbook.Proofs.Confinement
import Runbook.Proofs.Verdicts
import Runbook.Proofs.Notation
import Runbook.Proofs.Arrows
import Runbook.Proofs.Drawing
import Runbook.Proofs.Digits
import Runbook.Proofs.Rounding
import Runbook.Proofs.ShortestDigits
import Runbook.Proofs.FloatText
import Runbook.Proofs.Values
import Runbook.Proofs.JsonText
import Runbook.Proofs.JsonValue
import Runbook.Proofs.Dates
import Runbook.Proofs.Timestamps
import Runbook.Proofs.RunRecords
import Runbook.Proofs.FileTree
import Runbook.Proofs.StoredRuns
import Runbook.Proofs.Resumption
import Runbook.Proofs.Retention
import Runbook.Proofs.BoundNames
import Runbook.Proofs.StoredSteps
import Runbook.Proofs.Stepping
import Runbook.Proofs.Declarations
import Runbook.Proofs.Regions
import Runbook.Proofs.Derivations
import Runbook.Proofs.Lexemes
import Runbook.Proofs.Meaning
import Runbook.Proofs.Literals
import Runbook.Proofs.ReadBack
import Runbook.Proofs.WellDrawn
import Runbook.Proofs.Depiction
import Runbook.Proofs.Renderings
import Runbook.Proofs.Runnable
import Runbook.Proofs.WholeNumbers
import Runbook.Proofs.TextComparison
import Runbook.Proofs.Converse
import Runbook.Proofs.Puts
import Runbook.Proofs.Interchange
import Runbook.Proofs.Fences
import Runbook.Proofs.Overlays
import Runbook.Proofs.Precedence
import Runbook.Proofs.Loading
import Runbook.Proofs.Registrations
import Runbook.Proofs.Reloads
import Runbook.Proofs.Agreement
import Runbook.Proofs.Salvage
import Runbook.Proofs.Brackets
import Runbook.Proofs.Enclosures
import Runbook.Proofs.FilesBeside
import Runbook.Proofs.Interruptions
import Runbook.Proofs.Sparing
import Runbook.Proofs.RunCalls
import Runbook.Proofs.Rereading
import Runbook.Proofs.Sharing
import Runbook.Proofs.Composition
import Runbook.Proofs.ActionTexts
import Runbook.Proofs.Unnumbered
import Runbook.Proofs.Faults
import Runbook.Proofs.FaultLines
import Runbook.Proofs.Layouts
import Runbook.Proofs.Chronology
import Runbook.Proofs.Searching
import Runbook.Proofs.Extensions
import Runbook.Proofs.LogLines
