import Mathlib.Logic.Function.Basic
import Saved.Network

/-!
# Two nodes

Two nodes and the connections between them. A connection is opened once, under an id that is new
on either side, and each side learns of it later, at an address of its own. A side that has asked
for the close of a connection may see it closed at any time, and each side hears of the close at
any time after that. In between the sides learn and forget addresses of each other and reconcile,
each event with readings of the clock and answers of its own. All readings of one resort show the
same instant (`StillEnv`).

`PairEvent.allowed` is what the network promises of the events: nothing is learned twice or before
it is opened, nothing is closed that no side asked to close.
-/

namespace Saved

open Saved.Lib

/-- The close of a connection has been asked for. -/
def Asked (s : SavedNetwork) (c : ConnectionId) : Prop := .closeConnection c ∈ s.swarm.calls

instance (s : SavedNetwork) (c : ConnectionId) : Decidable (Asked s c) :=
  inferInstanceAs (Decidable (_ ∈ _))

/-- The two nodes. -/
inductive Side where
  | x
  | y
  deriving DecidableEq

/-- The node at the other end. -/
def Side.other : Side → Side
  | x => y
  | y => x

/-- A connection between the two nodes, with the id each of them gives it. -/
structure Link where
  idX : ConnectionId
  idY : ConnectionId
  deriving DecidableEq

/-- The id of a link on a side. -/
def Link.idAt (link : Link) : Side → ConnectionId
  | .x => link.idX
  | .y => link.idY

/-- A node, and the connections it has learned of. -/
structure Party where
  node : SavedNetwork
  learned : List ConnectionId

/-- **The state of the two nodes**, with the links opened and closed so far. -/
structure Pair where
  party : Side → Party
  opened : List Link
  closed : List Link

/-- The close of a link has been asked for by a side. -/
def Pair.AskedBy (s : Pair) (side : Side) (link : Link) : Prop :=
  Asked (s.party side).node (link.idAt side)

instance (s : Pair) (side : Side) (link : Link) : Decidable (s.AskedBy side link) :=
  inferInstanceAs (Decidable (Asked _ _))

/-- **An outside world in which every resort reads one clock value.** -/
structure StillEnv extends Env where
  still : ∀ n k, clock n k = clock n 0

/-- What happens to the two nodes. Each event has an outside world of its own, in which every resort
reads one clock value. -/
inductive PairEvent where
  | connect (link : Link)
  | learn (side : Side) (env : StillEnv) (link : Link) (endpoint : ConnectedPoint)
  | addAddress (side : Side) (env : StillEnv) (addr : Multiaddr)
  | removeAddress (side : Side) (env : StillEnv) (addr : Multiaddr)
  | reconcile (side : Side) (env : StillEnv)
  | close (link : Link)
  | deliver (side : Side) (env : StillEnv) (link : Link)

/-- **What the network promises of an event.** -/
def PairEvent.allowed (s : Pair) : PairEvent → Bool
  | connect link => s.opened.all fun l => decide (l.idX ≠ link.idX) && decide (l.idY ≠ link.idY)
  | learn side _ link _ =>
    decide (link ∈ s.opened) && decide (link.idAt side ∉ (s.party side).learned)
  | close link =>
    decide (link ∈ s.opened) && (decide (s.AskedBy .x link) || decide (s.AskedBy .y link))
  | deliver _ _ link => decide (link ∈ s.closed)
  | _ => true

namespace Pair

/-- Change the state of one side. -/
def act (s : Pair) (side : Side) (party : Party) : Pair :=
  { s with party := Function.update s.party side party }

/-- A side changes its view. -/
def onView (s : Pair) (side : Side) (env : Env) (f : Readings → NetworkView → NetworkView) : Pair :=
  s.act side { s.party side with node := (s.party side).node.onView env f }

/-- **One event.** `id` gives the peer ids of the two nodes. -/
def step (id : Side → PeerId) (s : Pair) : PairEvent → Option Pair
  | .connect link => some { s with opened := s.opened ++ [link] }
  | .learn side env link endpoint =>
    some (s.act side
      { node := (s.party side).node.onView env.toEnv fun now view =>
          view.addConnection now (id side.other) (link.idAt side) endpoint
        learned := link.idAt side :: (s.party side).learned })
  | .addAddress side env addr =>
    some (s.onView side env.toEnv fun now view => (view.addAddress now (id side.other) addr).2)
  | .removeAddress side env addr =>
    some (s.onView side env.toEnv fun now view => view.removeAddress now (id side.other) addr)
  | .reconcile side env =>
    ((s.party side).node.reconcilePeerConnections env.toEnv (id side.other)).map fun node =>
      s.act side { s.party side with node := node }
  | .close link => some { s with closed := s.closed ++ [link] }
  | .deliver side env link =>
    some (s.onView side env.toEnv fun now view =>
      view.removeConnection now (id side.other) (link.idAt side))

/-- Two nodes that know nothing of each other. -/
def start (id : Side → PeerId) (maxRelays : Side → Nat) : Pair where
  party side := { node := .start (id side) (maxRelays side), learned := [] }
  opened := []
  closed := []

end Pair

end Saved
