import Saved.Laws.Handlers

/-!
# The view and the swarm

The swarm reports each connection when it is established and when it is closed. `swarmConns` reads
the open connections off the reports, and `Tracks` says that the view has the same ones, each on
its remote address.

A turn keeps this unless it expires an address that a connection stands on: `on_remove_address`
takes the address out with its connections, and the swarm has closed none of them.
-/

namespace Saved

open Saved.Lib SavedNetwork

variable {env : Env} {me : PeerId} {max : Nat} {h : List Input} {s s' : SavedNetwork} {i : Input}

/-- The open connections of every peer, each with its endpoint. -/
abbrev Conns := PeerId → ConnectionId → Option ConnectedPoint

/-- What a report of the swarm changes. -/
def Input.report : Input → Conns → Conns
  | .event (.connectionEstablished p c e), conns =>
    fun q d => if q = p ∧ d = c then some e else conns q d
  | .event (.connectionClosed p c), conns =>
    fun q d => if q = p ∧ d = c then none else conns q d
  | _, conns => conns

/-- **The connections established and not yet closed.** -/
def swarmConns (h : List Input) : Conns := h.foldl (fun conns i => i.report conns) fun _ _ => none

/-- What libp2p has open after one more input is read off the last input alone. -/
theorem swarmConns_append (h : List Input) (i : Input) :
    swarmConns (h ++ [i]) = i.report (swarmConns h) := by
  unfold swarmConns
  rw [List.foldl_append, List.foldl_cons, List.foldl_nil]

/-- What libp2p promises of its reports: an id is new when its connection is established, and a
connection that is closed was open, with the same peer. -/
def Input.genuine (h : List Input) : Input → Bool
  | .event (.connectionEstablished _ c _) => h.all fun j =>
    match j with
    | .event (.connectionEstablished _ d _) => decide (d ≠ c)
    | _ => true
  | .event (.connectionClosed p c) => (swarmConns h p c).isSome
  | _ => true

/-- **The view agrees with the swarm**: a peer is connected when it has an open connection, and
every open connection is found on its remote address. -/
def Agrees (h : List Input) (s : SavedNetwork) : Prop :=
  ∀ p, (s.view.isConnected p = true ↔ ∃ c e, swarmConns h p c = some e) ∧
    ∀ c e, swarmConns h p c = some e → s.view.getConnectionAddress p c = some e.remote

/-- The invariant: the tracked connections are the open ones, each on its remote address. -/
structure Tracks (h : List Input) (s : SavedNetwork) : Prop where
  wf : s.view.WellFormed
  tracked : s.view.tracked = fun p c => (swarmConns h p c).map (·.remote)

namespace Tracks

/-- A new node tracks nothing, and nothing is open. -/
theorem start : Tracks [] (.start me max) :=
  ⟨NetworkView.wellFormed_empty, rfl⟩

/-- In a faithful history a connection is tracked exactly when it is open, and on its remote
address. -/
theorem tracked_iff (tracks : Tracks h s) {p : PeerId} {c : ConnectionId} {a : Multiaddr} :
    s.view.tracked p c = some a ↔ ∃ e, swarmConns h p c = some e ∧ e.remote = a := by
  rw [tracks.tracked, Option.map_eq_some_iff]

/-- In a faithful history the view answers every question about connections as the swarm would. -/
theorem agrees (tracks : Tracks h s) : Agrees h s := by
  intro p
  refine ⟨?_, fun c e isOpen => tracks.tracked_iff.mpr ⟨e, isOpen, rfl⟩⟩
  rw [NetworkView.isConnected_iff_tracked tracks.wf]
  constructor
  · intro connected
    obtain ⟨c, a, stands⟩ := connected
    obtain ⟨e, isOpen, _⟩ := tracks.tracked_iff.mp stands
    exact ⟨c, e, isOpen⟩
  · intro connected
    obtain ⟨c, e, isOpen⟩ := connected
    exact ⟨c, e.remote, tracks.tracked_iff.mpr ⟨e, isOpen, rfl⟩⟩

end Tracks

/-- An expiry spares every address that a connection stands on. Other inputs do. -/
def SavedNetwork.sparesConnected (s : SavedNetwork) : Input → Bool
  | .event (.mdnsExpired list) => list.all fun entry => !s.view.isConnectedOver entry.1 entry.2
  | _ => true

/-- An input that spares the connected addresses does to the tracked connections what its report
does to the open ones. -/
theorem Tracks.track (tracks : Tracks h s) (spares : s.sparesConnected i = true) :
    i.track s.view.tracked = fun p c => (swarmConns (h ++ [i]) p c).map (·.remote) := by
  rw [swarmConns_append]
  cases i with
  | rpc _ => exact tracks.tracked
  | event event =>
    cases event with
    | connectionEstablished p c e =>
      funext q d
      show Tracked.set _ p c (some e.remote) q d = Option.map _ (if q = p ∧ d = c then _ else _)
      rw [Tracked.set, tracks.tracked]
      split <;> rfl
    | connectionClosed p c =>
      funext q d
      show Tracked.set _ p c none q d = Option.map _ (if q = p ∧ d = c then _ else _)
      rw [Tracked.set, tracks.tracked]
      split <;> rfl
    | mdnsExpired list =>
      refine Eq.trans ?_ tracks.tracked
      refine Tracked.ext_some fun p c a => ?_
      show s.view.tracked.expire list p c = some a ↔ _
      rw [Tracked.expire_eq_some]
      refine ⟨And.left, fun stands => ⟨stands, fun listed => ?_⟩⟩
      -- an expired record of an address in use is what the condition excludes
      have up := (NetworkView.isConnectedOver_iff_tracked tracks.wf).mpr ⟨c, stands⟩
      have spared := List.all_eq_true.mp spares _ listed
      rw [up] at spared
      cases spared
    | _ => exact tracks.tracked

/-- **A turn that spares the connected addresses keeps the invariant**, whichever way it exits. -/
theorem Tracks.step (tracks : Tracks h s) (spares : s.sparesConnected i = true)
    (returned : s.step env i = some s') : Tracks (h ++ [i]) s' := by
  obtain ⟨r, stepped⟩ := step_stepped returned
  obtain ⟨wf, tracked⟩ := stepped.tracked tracks.wf
  exact ⟨wf, tracked.trans (tracks.track spares)⟩

/-- The invariant of every run that spares the connected addresses. -/
theorem tracks_run (run : Run (SavedNetwork.step env) (fun _ s i => s.sparesConnected i = true)
    (.start me max) h s) : Tracks h s :=
  run.invariant .start fun _ _ _ _ tracks spares returned => tracks.step spares returned

/-- An input does to a tracked connection what its report does to an open one, or less: an expiry is
no report. -/
theorem Input.open_of_track {tracked : Tracked} {conns : Conns}
    (isOpen : ∀ q d, (tracked q d).isSome = true → (conns q d).isSome = true) (q : PeerId)
    (d : ConnectionId) (stands : (i.track tracked q d).isSome = true) :
    (i.report conns q d).isSome = true := by
  cases i with
  | rpc _ => exact isOpen q d stands
  | event event =>
    cases event with
    | connectionEstablished p c e =>
      show (if q = p ∧ d = c then some e else conns q d).isSome = true
      by_cases here : q = p ∧ d = c
      · rw [if_pos here]
        rfl
      · change (if q = p ∧ d = c then some e.remote else tracked q d).isSome = true at stands
        rw [if_neg here] at stands ⊢
        exact isOpen q d stands
    | connectionClosed p c =>
      change (if q = p ∧ d = c then none else tracked q d).isSome = true at stands
      show (if q = p ∧ d = c then none else conns q d).isSome = true
      by_cases here : q = p ∧ d = c
      · rw [if_pos here] at stands
        cases stands
      · rw [if_neg here] at stands ⊢
        exact isOpen q d stands
    | mdnsExpired list =>
      obtain ⟨a, here⟩ := Option.isSome_iff_exists.mp stands
      exact isOpen q d (Option.isSome_iff_exists.mpr ⟨a, (Tracked.expire_eq_some.mp here).1⟩)
    | _ => exact isOpen q d stands

/-- **Every tracked connection is open**, in every run. The converse is what an expiry can break. -/
theorem open_of_tracked
    (run : Run (SavedNetwork.step env) (fun _ _ _ => True) (.start me max) h s) :
    ∀ q d, (s.view.tracked q d).isSome = true → (swarmConns h q d).isSome = true := by
  refine (run.invariant (I := fun h s => s.view.WellFormed ∧
    ∀ q d, (s.view.tracked q d).isSome = true → (swarmConns h q d).isSome = true) ?_ ?_).2
  · exact ⟨NetworkView.wellFormed_empty, fun q d stands => stands⟩
  · intro h s i s' both _ returned
    obtain ⟨r, stepped⟩ := step_stepped returned
    obtain ⟨wf, tracked⟩ := stepped.tracked both.1
    refine ⟨wf, ?_⟩
    rw [tracked, swarmConns_append]
    exact Input.open_of_track both.2

/-- **A turn that does not spare them loses an open connection.** -/
theorem Tracks.spares_of_agrees (tracks : Tracks h s) (returned : s.step env i = some s')
    (agrees : Agrees (h ++ [i]) s') : s.sparesConnected i = true := by
  cases i with
  | rpc _ => rfl
  | event event =>
    cases event with
    | mdnsExpired list =>
      obtain ⟨r, stepped⟩ := step_stepped returned
      obtain ⟨_, tracked⟩ := stepped.tracked tracks.wf
      refine List.all_eq_true.mpr fun entry listed => ?_
      rw [Bool.not_eq_true', Bool.eq_false_iff]
      intro up
      obtain ⟨p, a⟩ := entry
      obtain ⟨c, stands⟩ := (NetworkView.isConnectedOver_iff_tracked tracks.wf).mp up
      obtain ⟨e, isOpen, rfl⟩ := tracks.tracked_iff.mp stands
      have found := (agrees p).2 c e (by rw [swarmConns_append]; exact isOpen)
      change s'.view.tracked p c = some e.remote at found
      rw [tracked] at found
      exact (Tracked.expire_eq_some.mp found).2 listed
    | _ => rfl

/-- **The view agrees with the swarm in every run whose expiries spare the connected addresses**,
with any other inputs between, and whatever the calls answer. The next turn keeps it so exactly
when it spares them too. -/
theorem view_agrees (env : Env) (me : PeerId) (max : Nat) {h : List Input} {s : SavedNetwork}
    (run : Run (SavedNetwork.step env) (fun _ s i => s.sparesConnected i = true) (.start me max)
      h s) :
    Agrees h s ∧ ∀ i s', s.step env i = some s' →
      (Agrees (h ++ [i]) s' ↔ s.sparesConnected i = true) := by
  have tracks := tracks_run run
  refine ⟨tracks.agrees, fun i s' returned => ⟨tracks.spares_of_agrees returned, fun spares => ?_⟩⟩
  exact (tracks.step spares returned).agrees

/-- A world where every call succeeds and the clock stands still. -/
def Env.calm : Env where
  clock _ _ := 0
  large := .insertion
  dialOk _ := true
  sendOk _ := true
  listenOk _ := true
  mdnsOk _ := true
  bootstrapOk _ := true
  depth := 1

/-- An address in a private network. -/
def lanAddr (host : Byte) : Multiaddr := ⟨[.ip4 ⟨[10, 0, 0, host], rfl⟩, .tcp 4001]⟩

/-- A peer is found by mDNS and connects, and the mDNS record of an address expires. -/
def expiryInputs (remote expired : Multiaddr) : List Input :=
  [.event (.mdnsDiscovered [(⟨[1]⟩, lanAddr 1)]),
    .event (.connectionEstablished ⟨[1]⟩ ⟨0⟩ (.dialer remote)),
    .event (.mdnsExpired [(⟨[1]⟩, expired)])]

/-- The address that expires is not the one that is connected. -/
theorem view_agrees_spared : ∃ s, Run (SavedNetwork.step .calm)
    (fun _ s i => s.sparesConnected i = true) (.start ⟨[0]⟩ 4)
    (expiryInputs (lanAddr 2) (lanAddr 1)) s ∧
    Agrees (expiryInputs (lanAddr 2) (lanAddr 1)) s := by
  obtain ⟨s, run, _⟩ : ∃ s, Run (SavedNetwork.step .calm)
      (fun _ s i => s.sparesConnected i = true) (.start ⟨[0]⟩ 4)
      (expiryInputs (lanAddr 2) (lanAddr 1)) s ∧ s.view.isConnected ⟨[1]⟩ = true :=
    Run.exists_of_replay (by decide)
  exact ⟨s, run, (view_agrees .calm ⟨[0]⟩ 4 run).1⟩

/-- **An expiry loses an open connection**: the address that expires is the one that is connected,
and the view has no connection left. -/
theorem expired_connection_lost : ¬ ∀ (env : Env) (me : PeerId) (max : Nat) (h : List Input)
    (s : SavedNetwork), Run (SavedNetwork.step env) (fun h _ i => i.genuine h = true)
      (.start me max) h s → Agrees h s := by
  intro always
  obtain ⟨s, run, lost⟩ : ∃ s, Run (SavedNetwork.step .calm) (fun h _ i => i.genuine h = true)
      (.start ⟨[0]⟩ 4) (expiryInputs (lanAddr 1) (lanAddr 1)) s ∧
      (!s.view.isConnected ⟨[1]⟩) = true :=
    Run.exists_of_replay (by decide)
  have connected := (always _ _ _ _ s run ⟨[1]⟩).1.mpr ⟨⟨0⟩, .dialer (lanAddr 1), rfl⟩
  rw [connected] at lost
  cases lost

end Saved
