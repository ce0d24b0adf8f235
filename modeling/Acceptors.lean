import Acceptors.BoundedSet
import Acceptors.Comparison
import Acceptors.Config
import Acceptors.EpsilonRemoval
import Acceptors.Proofs.DerivedRuns
import Acceptors.Proofs.EpsilonRemoval
import Acceptors.Proofs.Paths
import Acceptors.Random.Automaton
import Acceptors.Proofs.SearchOrder
import Acceptors.Proofs.Numbering
import Acceptors.Proofs.Worklist
import Acceptors.Proofs.Comparison
import Acceptors.Automaton.InPlace
import Acceptors.Proofs.Histories
import Acceptors.Proofs.SearchAlong
import Acceptors.Proofs.Correspondence
import Acceptors.Proofs.Renaming
import Acceptors.Proofs.Idempotence
import Acceptors.Proofs.TwoRoutes
import Acceptors.Proofs.FirstDifference
import Acceptors.Proofs.ClosureAnswers
import Acceptors.Proofs.CanonicalRemoval
import Acceptors.Proofs.DerivedTable
import Acceptors.Proofs.RandomDeterminism
import Acceptors.Proofs.ForeignSymbols
import Acceptors.Proofs.Completion
import Acceptors.Proofs.RemovalTable
import Acceptors.Proofs.ReachablePart
import Acceptors.Proofs.IncrementalRuns
import Acceptors.Proofs.AcceptedWords
import Acceptors.Proofs.Emptiness
import Acceptors.Automaton.Recorded
import Acceptors.Conversions
import Acceptors.Proofs.Building
import Acceptors.Proofs.RemovalByCalls
import Acceptors.Proofs.DerivationByCalls
import Acceptors.Proofs.Failures
import Acceptors.Proofs.DeterministicRuns
import Acceptors.Proofs.StrictCheck
import Acceptors.Proofs.Growth
import Acceptors.Proofs.StateNames
import Acceptors.StateSet.Vector
import Acceptors.Proofs.StateVectors
import Acceptors.Random.ByCalls
import Acceptors.Proofs.RandomGrowth
import Acceptors.Proofs.RandomShapes
import Acceptors.Proofs.LogMirror
import Acceptors.Proofs.ConfigRoundTrip
import Acceptors.BoundedSet.Marks
import Acceptors.Closure.ByStack
import Acceptors.Proofs.Marks
import Acceptors.Proofs.ClosureByStack
