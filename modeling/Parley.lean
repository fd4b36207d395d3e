import Parley.Loading.Layout
import Parley.Main
import Parley.Proofs.Agreement.Signals
import Parley.Proofs.Lifecycle.Arrival
import Parley.Proofs.Lifecycle.ConnectRace
import Parley.Proofs.Negotiation.FailedSend
import Parley.Proofs.Negotiation.Mirror
import Parley.Proofs.Session.LateCompletion
import Parley.Session.Calls
import Parley.Proofs.Negotiation.Effect
import Parley.Proofs.Negotiation.Convergence
import Parley.Proofs.Agreement.Settlement
import Parley.Proofs.Agreement.Transparency
import Parley.Proofs.Lifecycle.BothSides
import Parley.Proofs.Loading.Operations
import Parley.Proofs.Loading.OneFetch
import Parley.Proofs.Agreement.Idempotence
import Parley.Proofs.Agreement.Chain
import Parley.Proofs.Agreement.Retries
import Parley.Proofs.Agreement.LocalView
import Parley.Proofs.Store.Operations
import Parley.Proofs.Negotiation.DoubleSettlement
import Parley.Proofs.Session.Deletion
import Parley.Proofs.Session.Echo
import Parley.Proofs.Store.Log
import Parley.Proofs.Negotiation.Withdrawal
import Parley.Proofs.Agreement.Independence
import Parley.Proofs.Store.Queries
import Parley.Proofs.Negotiation.Influence
import Parley.Proofs.Session.Refusal
import Parley.Proofs.Loading.Deletion
import Parley.Proofs.Loading.LoadRecords
import Parley.Proofs.Loading.Phases
import Parley.Proofs.Loading.Failures
import Parley.Proofs.Session.Release
import Parley.Proofs.Loading.PetriNet
import Parley.Proofs.Store.Delivery
import Parley.Proofs.Lifecycle.Repetition
import Parley.Proofs.Agreement.WrittenForm
import Parley.Proofs.Versions
import Parley.Proofs.Negotiation.BlankNames
import Parley.Proofs.Message.Page
