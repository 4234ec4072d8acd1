import Saved.Laws.ViewRefinement
import Saved.Laws.Quiet
import Saved.Laws.Relays
import Saved.Laws.Handlers
import Saved.Laws.Modes
import Saved.Laws.RelayTurns
import Saved.Laws.RelayPolicy
import Saved.Laws.Dialing
import Saved.Laws.Ranking
import Saved.Laws.Pair
import Saved.Laws.Classify
import Saved.Laws.Backoff
import Saved.Laws.Discovery
import Saved.Laws.Resort
import Saved.Laws.DeadRelays
import Saved.Laws.Moments
import Saved.Laws.TurnTraces
import Saved.Laws.Freshness
import Saved.Laws.Destination
import Saved.Laws.Failures
import Saved.Laws.InFlight
import Saved.Laws.Plan
import Saved.Laws.DialOnce
import Saved.Laws.Edits
import Saved.Laws.Pruning
import Saved.Laws.Redial
import Saved.Laws.Rtts
import Saved.Laws.TargetRelays
import Saved.Laws.Connected
import Saved.Laws.ListenAddress
import Saved.Laws.ModeSwitch
import Saved.Laws.Resolution
import Saved.Laws.Undialable
import Saved.Lib.Calls
import Saved.Laws.Process
import Saved.Laws.Announcements
import Saved.Laws.Locality
import Saved.Laws.Targets
import Saved.Laws.Alike
import Saved.Lib.Script
import Saved.Main
import Saved.Laws.Kademlia
import Saved.Laws.Main
import Saved.Laws.Settling
import Saved.Laws.Controller
