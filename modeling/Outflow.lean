import Outflow.Routing.Load
import Outflow.Script.Run
import Outflow.Proofs.Pipe
import Outflow.Proofs.Waiter
import Outflow.Proofs.Numeral
import Outflow.Proofs.Priority
import Outflow.Proofs.Journal
import Outflow.Proofs.Stdio
import Outflow.Proofs.Session.Views
import Outflow.Proofs.Session.Placement
import Outflow.Proofs.Session.Run
import Outflow.Proofs.Session.Sound
import Outflow.Proofs.Session.Parts
import Outflow.Proofs.Session.Turn
import Outflow.Proofs.Session.Moves
import Outflow.Proofs.Session.Effects
import Outflow.Proofs.Session.Order
import Outflow.Proofs.Session.Redirect
import Outflow.Proofs.Session.Bare
import Outflow.Proofs.Session.History
import Outflow.Proofs.Session.Account
import Outflow.Proofs.Exclusion
import Outflow.Proofs.Waiting
import Outflow.Proofs.Conservation
import Outflow.Proofs.Lines
import Outflow.Proofs.Script
import Outflow.Proofs.Settling
import Outflow.Proofs.FirstCome
import Outflow.Proofs.Cancelling
import Outflow.Proofs.Delivery
import Outflow.Proofs.EndOfOutput
import Outflow.Proofs.Notices
import Outflow.Proofs.Clones
import Outflow.Proofs.Uncontended
import Outflow.Proofs.Lifecycle
import Outflow.Proofs.Bystander
import Outflow.Proofs.Session.Focus
import Outflow.Proofs.Session.Aside
import Outflow.Proofs.Session.Viewing
import Outflow.Proofs.Session.Twins
import Outflow.Proofs.Independence
import Outflow.Proofs.Output
import Outflow.Proofs.ReadToEnd
import Outflow.Proofs.Offers
import Outflow.Proofs.WriteAll
import Outflow.Proofs.FailedSetup
import Outflow.Proofs.Session.Asking
import Outflow.Proofs.Lowercase
import Outflow.Proofs.Naming
import Outflow.Proofs.Loading
import Outflow.Proofs.Truthful
import Outflow.Proofs.Cuts
import Outflow.Proofs.Piecewise
import Outflow.Proofs.PipeInvariant
import Outflow.Proofs.WriteOutcome
import Outflow.Proofs.JsonReading
import Outflow.Proofs.Targets
import Outflow.Proofs.LogLines
