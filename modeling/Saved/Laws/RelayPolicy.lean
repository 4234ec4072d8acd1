import Mathlib.Data.List.Induction
import Saved.Laws.RelayTurns

/-!
# The policy of the relay manager

Four rules of `RelayManager`, over whole runs: the spare relays fit `max_relays`
(`spare_relays_fit`), the relays in use are the ones that carry a connection (`relays_in_sync`), a
relay that carries an open connection is not given up (`open_relay_kept`), and what a reservation
costs (`reservations_fit`).

The first holds in every run whose handlers run to their end. The second and the third hold under a
condition on the inputs, and each of the two conditions names a defect. The fourth is what the
check of `can_reserve` is worth: it counts the reservations held and not the ones asked for.
-/

namespace Saved

open Saved.Lib SavedNetwork

variable {env : Env} {me : PeerId} {max : Nat} {h : List Input} {s s' : SavedNetwork} {i : Input}

/-! ## What carries a connection -/

/-- Dialer or listener, the relay is read off the remote address. This is what misses the relay of a
circuit that was received. -/
theorem relayUsed_eq (e : ConnectedPoint) :
    relayUsed e = RelayManager.extractRelayPeer e.remote := by cases e <;> rfl

/-- **A turn lets a relay carry a connection only when it joins.** -/
theorem carries_track {t : Tracked} {r : PeerId} (carried : Carries (i.track t) r) :
    Carries t r ∨ i.joins = some r := by
  obtain ⟨p, c, a, stands, relay⟩ := carried
  cases i with
  | rpc _ => exact .inl ⟨p, c, a, stands, relay⟩
  | event event =>
    cases event with
    | mdnsExpired list => exact .inl ⟨p, c, a, (Tracked.expire_eq_some.mp stands).1, relay⟩
    | connectionClosed q d =>
      rcases Tracked.set_eq_some.mp stands with ⟨_, none⟩ | ⟨_, old⟩
      · cases none
      · exact .inl ⟨p, c, a, old, relay⟩
    | connectionEstablished q d e =>
      rcases Tracked.set_eq_some.mp stands with ⟨_, here⟩ | ⟨_, old⟩
      · refine .inr ((relayUsed_eq e).trans ?_)
        rw [Option.some.inj here]
        exact relay
      · exact .inl ⟨p, c, a, old, relay⟩
    | _ => exact .inl ⟨p, c, a, stands, relay⟩

/-- Only inputs that refresh the relay state make a relay join. -/
theorem joins_eq_none (idle : i.refreshes = false) : i.joins = none := by
  cases i with
  | rpc _ => rfl
  | event event =>
    cases event with
    | connectionEstablished _ _ _ | reservationReqAccepted _ => cases idle
    | _ => rfl

/-! ## The capacity -/

/-- **The reserved relays fit the capacity**, whatever the turns did: the relay manager changes
only in an update of the relay state, which prunes. -/
structure Fits (max : Nat) (s : SavedNetwork) : Prop where
  wf : s.view.WellFormed
  maxRelays : s.relayManager.maxRelays = max
  nodup : s.relayManager.reserved.Nodup
  fits : s.relayManager.reserved.length ≤ s.relayManager.inUse.len + max

/-- No relay is reserved at the start. -/
theorem Fits.start : Fits max (.start me max) :=
  ⟨NetworkView.wellFormed_empty, rfl, List.nodup_nil, Nat.zero_le _⟩

/-- A turn that refreshes the relay state ends within the capacity, and any other leaves the book
alone. -/
theorem Fits.stepped {r : Except SavedError Unit} (fits : Fits max s)
    (stepped : Stepped env s i r s') : Fits max s' := by
  have wf' := (stepped.tracked fits.wf).1
  by_cases updates : i.refreshes = true ∧ r = .ok ()
  · obtain ⟨asks, rfl⟩ := updates
    have refreshed := stepped.refreshed asks fits.wf
    have maxRelays := refreshed.maxRelays.trans fits.maxRelays
    exact ⟨wf', maxRelays, refreshed.nodup fits.nodup, maxRelays ▸ refreshed.fits fits.nodup⟩
  · have idle : i.refreshes = false ∨ r ≠ .ok () := by
      rw [not_and_or, Bool.not_eq_true] at updates
      exact updates
    have same := (stepped.unrefreshed fits.wf idle).relayManager
    exact ⟨wf', same ▸ fits.maxRelays, same ▸ fits.nodup, same ▸ fits.fits⟩

/-- The rule of the relays: they fit, those in use are reserved, and so is each that carries a
connection. -/
structure Held (max : Nat) (s : SavedNetwork) : Prop extends Fits max s where
  inUse : ∀ r ∈ s.relayManager.inUse, r ∈ s.relayManager.reserved
  carried : ∀ r, Carries s.view.tracked r → r ∈ s.relayManager.reserved

/-- No connection, so no relay carries one. -/
theorem not_carries_start {r : PeerId} : ¬ Carries (start me max).view.tracked r := by
  intro carried
  obtain ⟨p, c, a, stands, _⟩ := carried
  cases stands

/-- The rule holds of a node without relays. -/
theorem Held.start : Held max (.start me max) :=
  ⟨.start, fun _ used => absurd used (HashSet.not_mem_empty _),
    fun _ carried => absurd carried not_carries_start⟩

/-- A turn that runs to its end keeps the rule. -/
theorem Held.stepped (held : Held max s) (stepped : Stepped env s i (.ok ()) s') :
    Held max s' := by
  have tracked := (stepped.tracked held.wf).2
  cases asks : i.refreshes with
  | true =>
    have refreshed := stepped.refreshed asks held.wf
    have carried : ∀ r, Carries s'.view.tracked r → r ∈ s'.relayManager.reserved := by
      intro r carried
      refine refreshed.kept r ?_ carried
      rw [tracked] at carried
      exact (carries_track carried).imp (held.carried r) id
    exact ⟨held.toFits.stepped stepped, fun r used => carried r ((refreshed.inUse r).mp used),
      carried⟩
  | false =>
    have same := (stepped.unrefreshed held.wf (.inl asks)).relayManager
    refine ⟨held.toFits.stepped stepped, same ▸ held.inUse, fun r carried => ?_⟩
    rw [same]
    rw [tracked] at carried
    rcases carries_track carried with old | joined
    · exact held.carried r old
    · rw [joins_eq_none asks] at joined
      cases joined

/-- **The relay capacity policy over whole runs.** In every run in which no handler returns early
with an error, whatever the capacity: no relay is reserved twice, every relay in use is reserved,
and at most `max_relays` reserved relays are not in use. -/
theorem spare_relays_fit (env : Env) (me : PeerId) (max : Nat) {h : List Input}
    {s : SavedNetwork}
    (run : Run (SavedNetwork.stepOk env) (fun _ _ _ => True) (.start me max) h s) :
    s.relayManager.reserved.Nodup ∧
    (∀ r ∈ s.relayManager.inUse, r ∈ s.relayManager.reserved) ∧
    (s.relayManager.reserved.filter fun r => decide (r ∉ s.relayManager.inUse)).length ≤ max := by
  have held : Held max s := run.state_invariant .start
    fun _ _ _ _ held _ returned => held.stepped (stepOk_stepped returned)
  have spare := RelayManager.spare_length held.nodup held.inUse
  have fits := held.fits
  exact ⟨held.nodup, held.inUse, by omega⟩

/-- The address of a peer over a circuit of a relay. -/
def circuitAddr (relay peer : PeerId) : Multiaddr :=
  (((lanAddr 1).withProtocol (.p2p relay)).withProtocol .p2pCircuit).withProtocol (.p2p peer)

/-- A connection over a relay, and two reservations, with room for one spare relay: the last of
the two goes. -/
theorem spare_relays_fit_one : ∃ s, Run (SavedNetwork.stepOk .calm) (fun _ _ _ => True)
    (.start ⟨[0]⟩ 1)
    [.event (.connectionEstablished ⟨[1]⟩ ⟨0⟩ (.dialer (circuitAddr ⟨[7]⟩ ⟨[1]⟩))),
      .event (.reservationReqAccepted ⟨[8]⟩), .event (.reservationReqAccepted ⟨[9]⟩)] s ∧
    s.relayManager.reserved = [⟨[7]⟩, ⟨[8]⟩] ∧
    (s.relayManager.reserved.filter fun r => decide (r ∉ s.relayManager.inUse)).length ≤ 1 := by
  obtain ⟨s, run, reserved⟩ : ∃ s, Run (SavedNetwork.stepOk .calm) (fun _ _ _ => True)
      (.start ⟨[0]⟩ 1)
      [.event (.connectionEstablished ⟨[1]⟩ ⟨0⟩ (.dialer (circuitAddr ⟨[7]⟩ ⟨[1]⟩))),
        .event (.reservationReqAccepted ⟨[8]⟩), .event (.reservationReqAccepted ⟨[9]⟩)] s ∧
      decide (s.relayManager.reserved = [⟨[7]⟩, ⟨[8]⟩]) = true :=
    Run.exists_of_replay (by decide)
  exact ⟨s, run, of_decide_eq_true reserved, (spare_relays_fit .calm ⟨[0]⟩ 1 run).2.2⟩

/-! ## In sync with the view -/

/-- **The relays in use are the ones that carry a connection**, and each of them is reserved. -/
structure InSync (s : SavedNetwork) : Prop where
  inUse : ∀ r, r ∈ s.relayManager.inUse ↔ Carries s.view.tracked r
  reserved : ∀ r, Carries s.view.tracked r → r ∈ s.relayManager.reserved

/-- The input is an expiry. -/
def Input.expires : Input → Bool
  | .event (.mdnsExpired _) => true
  | _ => false

/-- **When a turn keeps the relays in sync**: an expiry, and a handler that exits early, must leave
the relays that carry a connection as they were. -/
def SavedNetwork.keepsSync (env : Env) (s : SavedNetwork) (i : Input) : Prop :=
  i.expires = true ∨ s.exitsEarly env i = true →
    ∀ r, Carries (i.track s.view.tracked) r ↔ Carries s.view.tracked r

/-- No relay is in use, and none carries a connection. -/
theorem InSync.start : InSync (.start me max) :=
  ⟨fun _ => ⟨fun used => absurd used (HashSet.not_mem_empty _),
    fun carried => absurd carried not_carries_start⟩,
    fun _ carried => absurd carried not_carries_start⟩

/-- With the relay manager as it was, the relays stay in sync when those that carry do not
change. -/
theorem InSync.unrefreshed (sync : InSync s) (same : s'.relayManager = s.relayManager) :
    InSync s' ↔ ∀ r, Carries s'.view.tracked r ↔ Carries s.view.tracked r := by
  constructor
  · intro sync' r
    rw [← sync'.inUse, ← sync.inUse, same]
  · intro carried
    refine ⟨fun r => ?_, fun r carries => ?_⟩
    · rw [same, sync.inUse, carried]
    · rw [same]
      exact sync.reserved r ((carried r).mp carries)

/-- An input that neither updates the relay state nor expires an address moves no connection. -/
theorem track_idle (idle : i.refreshes = false) (stays : i.expires = false) (t : Tracked) :
    i.track t = t := by
  cases i with
  | rpc _ => rfl
  | event event =>
    cases event with
    | connectionEstablished _ _ _ | connectionClosed _ _ => cases idle
    | mdnsExpired _ => cases stays
    | _ => rfl

/-- Only the two handlers of connections exit early. -/
theorem exitsEarly_idle (idle : i.refreshes = false) : s.exitsEarly env i = false := by
  cases i with
  | rpc _ => rfl
  | event event =>
    cases event with
    | connectionEstablished _ _ _ | connectionClosed _ _ => cases idle
    | _ => rfl

/-- An expiry does not refresh the relay state. -/
theorem expires_eq_false (asks : i.refreshes = true) : i.expires = false := by
  cases i with
  | rpc _ => rfl
  | event event =>
    cases event with
    | mdnsExpired _ => cases asks
    | _ => rfl

/-- **A turn keeps the relays in sync exactly when its condition holds.** -/
theorem InSync.stepped {r : Except SavedError Unit} (sync : InSync s) (wf : s.view.WellFormed)
    (stepped : Stepped env s i r s') : InSync s' ↔ s.keepsSync env i := by
  have tracked := (stepped.tracked wf).2
  unfold keepsSync
  rw [← tracked]
  -- Only an input that refreshes the state brings the book in line, unless it exits early.
  cases asks : i.refreshes with
  | false =>
    have same := (stepped.unrefreshed wf (.inl asks)).relayManager
    rw [sync.unrefreshed same, exitsEarly_idle asks]
    refine ⟨fun carried _ => carried, fun keeps => ?_⟩
    cases stays : i.expires with
    | true => exact keeps (.inl stays)
    | false =>
      intro q
      rw [tracked, track_idle asks stays]
  | true =>
    rw [expires_eq_false asks]
    by_cases late : r = .ok ()
    · subst late
      have onTime : s.exitsEarly env i ≠ true := fun early =>
        (stepped.exits asks wf).mpr early rfl
      refine ⟨fun _ both => ?_, fun _ => ?_⟩
      · rcases both with expires | early
        · cases expires
        · exact absurd early onTime
      · have refreshed := stepped.refreshed asks wf
        refine ⟨refreshed.inUse, fun q carried => refreshed.kept q ?_ carried⟩
        rw [tracked] at carried
        exact (carries_track carried).imp (sync.reserved q) id
    · have early := (stepped.exits asks wf).mp late
      have same := (stepped.unrefreshed wf (.inr late)).relayManager
      rw [sync.unrefreshed same]
      exact ⟨fun carried _ => carried, fun keeps => keeps (.inr early)⟩

/-- **The relays in use are in sync with the view, in every run whose expiries and whose early
exits leave the relays that carry a connection as they were.** The next turn keeps them in sync
exactly when it does so too. -/
theorem relays_in_sync (env : Env) (me : PeerId) (max : Nat) {h : List Input} {s : SavedNetwork}
    (run : Run (SavedNetwork.step env) (fun _ s i => s.keepsSync env i) (.start me max) h s) :
    InSync s ∧ ∀ i s', s.step env i = some s' → (InSync s' ↔ s.keepsSync env i) := by
  have inv : s.view.WellFormed ∧ InSync s := by
    refine run.state_invariant (I := fun s => s.view.WellFormed ∧ InSync s)
      ⟨NetworkView.wellFormed_empty, .start⟩ ?_
    intro _ s s' i inv keeps returned
    obtain ⟨wf, sync⟩ := inv
    obtain ⟨r, stepped⟩ := step_stepped returned
    exact ⟨(stepped.tracked wf).1, (sync.stepped wf stepped).mpr keeps⟩
  obtain ⟨wf, sync⟩ := inv
  refine ⟨sync, fun i s' returned => ?_⟩
  obtain ⟨r, stepped⟩ := step_stepped returned
  exact sync.stepped wf stepped

/-- A turn that neither expires an address nor exits early keeps the relays in sync. -/
theorem keepsSync_of_onTime (onTime : i.expires = false ∧ s.exitsEarly env i = false) :
    s.keepsSync env i := by
  intro broken
  rw [onTime.1, onTime.2] at broken
  simp at broken

/-- A connection over the relay `7` opens and closes. -/
def relayedInputs : List Input :=
  [.event (.connectionEstablished ⟨[1]⟩ ⟨0⟩ (.dialer (circuitAddr ⟨[7]⟩ ⟨[1]⟩))),
    .event (.connectionClosed ⟨[1]⟩ ⟨0⟩)]

/-- With every broadcast heard, the relays are in sync. -/
theorem relays_in_sync_heard : ∃ s, Run (SavedNetwork.step .calm)
    (fun _ s i => s.keepsSync .calm i) (.start ⟨[0]⟩ 4) relayedInputs s ∧ InSync s := by
  obtain ⟨s, run, _⟩ : ∃ s, Run (SavedNetwork.step .calm)
      (fun _ s i => i.expires = false ∧ s.exitsEarly .calm i = false) (.start ⟨[0]⟩ 4)
      relayedInputs s ∧ decide (s.relayManager.inUse.toList = []) = true :=
    Run.exists_of_replay (by decide)
  have run' := run.mono fun _ _ _ => keepsSync_of_onTime
  exact ⟨s, run', (relays_in_sync .calm ⟨[0]⟩ 4 run').1⟩

/-- A world where nobody hears a broadcast after the first. -/
def Env.unheard : Env := { Env.calm with sendOk := fun asked => decide (asked ≤ 1) }

/-- **A close that nobody hears leaves the relay in use**: the handler returns before the relays
are updated. -/
theorem closed_relay_in_use : ¬ ∀ (env : Env) (me : PeerId) (max : Nat) (h : List Input)
    (s : SavedNetwork), Run (SavedNetwork.step env) (fun h _ i => i.genuine h = true)
      (.start me max) h s → InSync s := by
  intro always
  obtain ⟨s, run, stale⟩ : ∃ s, Run (SavedNetwork.step .unheard)
      (fun h _ i => i.genuine h = true) (.start ⟨[0]⟩ 4) relayedInputs s ∧
      (decide (⟨[7]⟩ ∈ s.relayManager.inUse) &&
        decide (⟨[7]⟩ ∉ (s.relayManager.recomputeInUse s.view).inUse)) = true :=
    Run.exists_of_replay (by decide)
  rw [Bool.and_eq_true, decide_eq_true_eq, decide_eq_true_eq] at stale
  have wf : s.view.WellFormed := run.state_invariant (I := fun s => s.view.WellFormed)
    NetworkView.wellFormed_empty fun _ _ _ _ wf _ returned => by
      obtain ⟨r, stepped⟩ := step_stepped returned
      exact (stepped.tracked wf).1
  have carried := ((always _ _ _ _ s run).inUse ⟨[7]⟩).mp stale.1
  exact stale.2 ((RelayManager.mem_recomputeInUse wf).mpr carried)

/-! ## Relays that carry an open connection -/

/-- The end of a connection that names the circuit it goes over: the address dialed, or the address
a circuit was received on. -/
def ConnectedPoint.circuitEnd : ConnectedPoint → Multiaddr
  | dialer address => address
  | listener localAddr _ => localAddr

/-- **A connection relayed through `r`**: its circuit end has the form `…/p2p/r/p2p-circuit/…`. -/
def ConnectedPoint.RelayedThrough (e : ConnectedPoint) (r : PeerId) : Prop :=
  ∃ before after, e.circuitEnd.iter = before ++ .p2p r :: .p2pCircuit :: after

/-- The relays in front of a circuit. -/
def circuitRelays : List Protocol → List PeerId
  | [] => []
  | p :: rest =>
    match p, rest with
    | .p2p r, .p2pCircuit :: _ => r :: circuitRelays rest
    | _, _ => circuitRelays rest

/-- Every relay in front of a circuit is on the list that `relayVisible` goes through. -/
theorem mem_circuitRelays {r : PeerId} {before after : List Protocol} :
    r ∈ circuitRelays (before ++ .p2p r :: .p2pCircuit :: after) := by
  induction before with
  | nil => exact List.mem_cons_self
  | cons p before ih =>
    rw [List.cons_append]
    unfold circuitRelays
    split
    · exact List.mem_cons_of_mem _ ih
    · exact ih

/-- **The relay of a connection is the one its remote address names**, where there is one: the
remote address is all the view stores. -/
def Input.relayVisible : Input → Bool
  | .event (.connectionEstablished _ _ e) => (circuitRelays e.circuitEnd.iter).all fun r =>
    decide (RelayManager.extractRelayPeer e.remote = some r)
  | _ => true

/-- Every open connection was established by one of the inputs. -/
theorem swarmConns_established {h : List Input} {p : PeerId} {c : ConnectionId}
    {e : ConnectedPoint} (isOpen : swarmConns h p c = some e) :
    .event (.connectionEstablished p c e) ∈ h := by
  -- By induction on the history: the last input to speak of the connection decided it.
  induction h using List.reverseRecOn with
  | nil => cases isOpen
  | append_singleton h i ih =>
    rw [swarmConns_append] at isOpen
    rw [List.mem_append, List.mem_singleton]
    cases i with
    | rpc _ => exact .inl (ih isOpen)
    | event event =>
      cases event with
      | connectionEstablished q d e' =>
        change (if p = q ∧ c = d then some e' else swarmConns h p c) = some e at isOpen
        split at isOpen
        · next here =>
          obtain ⟨rfl, rfl⟩ := here
          cases isOpen
          exact .inr rfl
        · exact .inl (ih isOpen)
      | connectionClosed q d =>
        change (if p = q ∧ c = d then none else swarmConns h p c) = some e at isOpen
        split at isOpen
        · cases isOpen
        · exact .inl (ih isOpen)
      | _ => exact .inl (ih isOpen)

/-- **A relay that carries an open connection is never pruned**, in every run whose connections
show their relay in the remote address. Expiries are to spare the connected addresses, which
connection and reservation events do; other inputs may stand between. -/
theorem open_relay_kept (env : Env) (me : PeerId) (max : Nat) {h : List Input}
    {i : Input} {s s' : SavedNetwork} {new : List Call} {r : PeerId}
    (run : Run (SavedNetwork.step env)
      (fun _ s i => s.sparesConnected i = true ∧ i.relayVisible = true) (.start me max) h s)
    (spares : s.sparesConnected i = true) (visible : i.relayVisible = true)
    (returned : s.step env i = some s') (calls : s'.swarm.calls = s.swarm.calls ++ new)
    (pruned : .disconnectPeerId r ∈ new) :
    ∀ p c e, swarmConns (h ++ [i]) p c = some e → ¬ e.RelayedThrough r := by
  have tracks := tracks_run (run.mono fun _ _ _ both => both.1)
  have shown : ∀ j ∈ h ++ [i], j.relayVisible = true := by
    have before : ∀ j ∈ h, j.relayVisible = true :=
      run.invariant (I := fun h _ => ∀ j ∈ h, j.relayVisible = true)
        (fun _ none => absurd none List.not_mem_nil) fun h s s' i all meets _ j mem => by
          rcases List.mem_append.mp mem with old | here
          · exact all j old
          · exact List.mem_singleton.mp here ▸ meets.2
    intro j mem
    rcases List.mem_append.mp mem with old | here
    · exact before j old
    · exact List.mem_singleton.mp here ▸ visible
  intro p c e isOpen relayed
  obtain ⟨before, after, circuit⟩ := relayed
  -- the view has the connection on its remote address, and that address names the relay
  have named : RelayManager.extractRelayPeer e.remote = some r := by
    have all := List.all_eq_true.mp (shown _ (swarmConns_established isOpen)) r
      (by rw [circuit]; exact mem_circuitRelays)
    exact of_decide_eq_true all
  have carried : Carries s'.view.tracked r :=
    ⟨p, c, e.remote, (tracks.step spares returned).tracked_iff.mpr ⟨e, isOpen, rfl⟩, named⟩
  obtain ⟨exit, stepped⟩ := step_stepped returned
  by_cases updates : i.refreshes = true ∧ exit = .ok ()
  · obtain ⟨asks, rfl⟩ := updates
    have unused := (stepped.refreshed asks tracks.wf).calls.of_append calls _ pruned
    exact unused r rfl carried
  · have idle : i.refreshes = false ∨ exit ≠ .ok () := by
      rw [not_and_or, Bool.not_eq_true] at updates
      exact updates
    exact (stepped.unrefreshed tracks.wf idle).calls.of_append calls _ pruned r rfl

/-- Four relays are reserved, the last of them carries the connection, and a fifth relay, to which
the node has a direct connection, accepts a reservation. -/
def fifthRelayInputs (e : ConnectedPoint) : List Input :=
  [.event (.reservationReqAccepted ⟨[4]⟩), .event (.reservationReqAccepted ⟨[5]⟩),
    .event (.reservationReqAccepted ⟨[6]⟩), .event (.reservationReqAccepted ⟨[7]⟩),
    .event (.connectionEstablished ⟨[1]⟩ ⟨0⟩ e),
    .event (.connectionEstablished ⟨[8]⟩ ⟨1⟩ (.dialer (lanAddr 8)))]

/-- The connection was dialed: with one relay in use the five fit, and a sixth reservation prunes
another relay. -/
theorem open_relay_kept_dialed : ∃ s s' new,
    Run (SavedNetwork.step .calm)
      (fun _ s i => s.sparesConnected i = true ∧ i.relayVisible = true) (.start ⟨[0]⟩ 4)
      (fifthRelayInputs (.dialer (circuitAddr ⟨[7]⟩ ⟨[1]⟩)) ++
        [Input.event (.reservationReqAccepted ⟨[8]⟩)]) s ∧
    s.step .calm (.event (.reservationReqAccepted ⟨[9]⟩)) = some s' ∧
    s'.swarm.calls = s.swarm.calls ++ new ∧ .disconnectPeerId ⟨[9]⟩ ∈ new ∧
    ¬ ConnectedPoint.RelayedThrough (.dialer (circuitAddr ⟨[7]⟩ ⟨[1]⟩)) ⟨[9]⟩ := by
  obtain ⟨s, run, pruned⟩ : ∃ s, Run (SavedNetwork.step .calm)
      (fun _ s i => s.sparesConnected i = true ∧ i.relayVisible = true) (.start ⟨[0]⟩ 4)
      (fifthRelayInputs (.dialer (circuitAddr ⟨[7]⟩ ⟨[1]⟩)) ++
        [Input.event (.reservationReqAccepted ⟨[8]⟩)]) s ∧
      ((s.step .calm (.event (.reservationReqAccepted ⟨[9]⟩))).any fun s' =>
        decide (s'.swarm.calls = s.swarm.calls ++ [Call.disconnectPeerId ⟨[9]⟩])) = true :=
    Run.exists_of_replay (by decide)
  obtain ⟨s', returned, calls⟩ := (Option.any_eq_true _ _).mp pruned
  have calls := of_decide_eq_true calls
  have kept := open_relay_kept .calm ⟨[0]⟩ 4 run rfl rfl returned calls List.mem_cons_self
  exact ⟨s, s', _, run, returned, calls, List.mem_cons_self, kept ⟨[1]⟩ ⟨0⟩ _ rfl⟩

/-- **A relay that carries a received circuit is pruned**: the view stores the address to send
back to, which does not name the relay, so the relay counts as spare. -/
theorem received_circuit_pruned : ¬ ∀ (env : Env) (me : PeerId) (max : Nat) (h : List Input)
    (i : Input) (s s' : SavedNetwork) (new : List Call) (r : PeerId),
    Run (SavedNetwork.step env)
      (fun h _ i => i.genuine h = true ∧ i.refreshes = true) (.start me max) h s →
    i.refreshes = true → s.step env i = some s' → s'.swarm.calls = s.swarm.calls ++ new →
    .disconnectPeerId r ∈ new →
    ∀ p c e, swarmConns (h ++ [i]) p c = some e → ¬ e.RelayedThrough r := by
  intro always
  obtain ⟨s, run, pruned⟩ : ∃ s, Run (SavedNetwork.step .calm)
      (fun h _ i => i.genuine h = true ∧ i.refreshes = true) (.start ⟨[0]⟩ 4)
      (fifthRelayInputs (.listener (circuitAddr ⟨[7]⟩ ⟨[0]⟩) ⟨[.p2p ⟨[1]⟩]⟩)) s ∧
      ((s.step .calm (.event (.reservationReqAccepted ⟨[8]⟩))).any fun s' =>
        decide (s'.swarm.calls = s.swarm.calls ++ [Call.disconnectPeerId ⟨[7]⟩])) = true :=
    Run.exists_of_replay (by decide)
  obtain ⟨s', returned, calls⟩ := (Option.any_eq_true _ _).mp pruned
  exact always _ _ _ _ _ s s' _ ⟨[7]⟩ run rfl returned (of_decide_eq_true calls)
    List.mem_cons_self ⟨[1]⟩ ⟨0⟩ _ rfl ⟨[.ip4 ⟨[10, 0, 0, 1], rfl⟩, .tcp 4001], [.p2p ⟨[0]⟩], rfl⟩

/-! ## Requests and reservations -/

/-- A call that listens nowhere. -/
def Call.dials (call : Call) : Prop := ∀ a ok, call ≠ .listenOn a ok

/-- The reconciliation listens nowhere. -/
theorem Reconciled.dials {p : PeerId} (reconciled : Reconciled env p s s') :
    Makes Call.dials s s' := by
  induction reconciled with
  | unknown | keep | wait => exact .of_eq rfl
  | dialed | migrate => exact .tell (by simp [Call.dials])
  | migrateFailed => exact .trans (.tell (by simp [Call.dials])) (.of_eq rfl)
  | redial _ _ _ _ ih => exact .trans (.trans (.tell (by simp [Call.dials])) (.of_eq rfl)) ih
  | prune =>
    refine .tell fun call made => ?_
    obtain ⟨c, _, rfl⟩ := List.mem_map.mp made
    exact fun a ok => nofun

/-- Learning an address listens nowhere. -/
theorem onAddAddress_dials {p : PeerId} {a : Multiaddr}
    (returned : s.onAddAddress env p a = some s') : Makes Call.dials s s' := by
  unfold onAddAddress at returned
  split at returned
  · cases returned
    exact .of_eq rfl
  · dsimp only at returned
    split at returned
    · cases returned
      exact .of_eq rfl
    · have told : ∀ u : SavedNetwork, Makes Call.dials u (u.tellKad (.kadAddAddress p a)) := by
        intro u
        unfold tellKad
        split
        · exact .tell (by simp [Call.dials])
        · exact .of_eq rfl
      have learned : Makes Call.dials s
          (s.onView env fun now view => (view.addAddress now p a).2) := .of_eq rfl
      exact (learned.trans (told _)).trans (reconciled_of_returned returned).dials

/-- Nor does the loop over offered addresses. -/
theorem addAddresses_dials {list : List (PeerId × Multiaddr)}
    (returned : s.addAddresses env list = some s') : Makes Call.dials s s' :=
  Proc.foldlM_keeps (K := Makes Call.dials) .trans (fun _ => .of_eq rfl)
    (fun _ _ _ _ round => onAddAddress_dials round) returned

/-- **A request is made when `can_reserve` allows it**, and then at most one. -/
theorem identify_requests {p : PeerId} {protocols : List StreamProtocol}
    {listenAddrs : List Multiaddr} {new : List Call}
    (returned : s.step env (.event (.identifyReceived p protocols listenAddrs)) = some s')
    (calls : s'.swarm.calls = s.swarm.calls ++ new) {a : Multiaddr} {ok : Bool}
    (asked : .listenOn a ok ∈ new) : s.relayManager.canReserve p = true := by
  have ensures : (onSwarmEvent env (.identifyReceived p protocols listenAddrs)).Ensures s
      fun _ s' => Makes (fun call => s.relayManager.canReserve p = true ∨ call.dials) s s' := by
    simp only [onSwarmEvent, Proc.ensures_bind, Proc.exits_ok, Proc.ensures_update,
      Proc.ensures_attempt]
    intro t learned
    have dials := (addAddresses_dials learned).mono (Q := fun call =>
      s.relayManager.canReserve p = true ∨ call.dials) fun _ dials => .inr dials
    -- Taking up the offered addresses leaves the relay book, so room after it is room before.
    have same : t.relayManager = s.relayManager := (Quiet.addAddresses learned).relayManager
    refine .trans (.trans (.of_eq rfl) dials) ?_
    unfold requestReservation
    rw [same]
    split
    · split
      · exact .of_eq rfl
      · next room =>
        split
        -- the one branch that listens
        · exact .tell fun _ _ => .inl (by simpa using room)
        · exact .of_eq rfl
    · exact .of_eq rfl
  have makes : Makes _ s s' := ensures.of_exec returned
  rcases makes.of_append calls _ asked with room | dials
  · exact room
  · exact absurd rfl (dials a ok)

/-- **What a reservation costs.** With the relays in sync, accepting one gives up one relay when
the accepted one is new and the reserved ones are at the capacity, and none otherwise. -/
theorem accepted_prunes {relay : PeerId} {new : List Call} (fits : Fits max s) (sync : InSync s)
    (returned : s.step env (.event (.reservationReqAccepted relay)) = some s')
    (calls : s'.swarm.calls = s.swarm.calls ++ new) :
    ∃ gone : List PeerId, new = gone.map .disconnectPeerId ∧
      gone.length = if relay ∉ s.relayManager.reserved ∧
        s.relayManager.reserved.length = s.relayManager.inUse.len + max then 1 else 0 := by
  obtain rfl : (s.register relay).updateRelayState = s' := Option.some.inj returned
  have updated := updateRelayState_spec (s.register relay)
  obtain ⟨gone, made, _, count⟩ := updated.calls
  refine ⟨gone, List.append_cancel_left (calls.symm.trans made), ?_⟩
  have inUse : (s.register relay).updateRelayState.relayManager.inUse.len =
      s.relayManager.inUse.len := by
    refine HashSet.len_congr fun r => ?_
    rw [updated.inUse, sync.inUse]
    exact RelayManager.mem_recomputeInUse fits.wf
  have maxRelays : (s.register relay).updateRelayState.relayManager.maxRelays = max :=
    updated.maxRelays.trans (RelayManager.register_maxRelays.trans fits.maxRelays)
  have length : (s.register relay).relayManager.reserved.length =
      s.relayManager.reserved.length + if relay ∈ s.relayManager.reserved then 0 else 1 := by
    show (s.relayManager.register relay).reserved.length = _
    unfold RelayManager.register
    split
    · rfl
    · exact List.length_append
  have small := updated.fits (RelayManager.register_nodup fits.nodup)
  have tight := updated.tight
  have room := fits.fits
  rw [inUse, maxRelays] at small tight
  rw [length] at tight count
  -- A relay that was held changes no count; a new one is too many when there was no room.
  by_cases old : relay ∈ s.relayManager.reserved
  · simp only [old, if_true, not_true_eq_false, false_and, if_false] at tight count ⊢
    omega
  · simp only [old, if_false, not_false_eq_true, true_and] at tight count ⊢
    split <;> omega

/-- **Reservations held never exceed the capacity**, in every run that keeps the relays in sync. A
request is made only to a relay that is reserved already, or while the reserved relays are below
the capacity; requests that are still out do not count. Accepting a reservation prunes one relay
when the accepted one is new and the reserved ones are at the capacity, and none otherwise. -/
theorem reservations_fit (env : Env) (me : PeerId) (max : Nat) {h : List Input}
    {s : SavedNetwork}
    (run : Run (SavedNetwork.step env) (fun _ s i => s.keepsSync env i) (.start me max) h s) :
    s.relayManager.reserved.length ≤ s.relayManager.inUse.len + max ∧
    (∀ p protocols listenAddrs s' new a ok,
      s.step env (.event (.identifyReceived p protocols listenAddrs)) = some s' →
      s'.swarm.calls = s.swarm.calls ++ new → .listenOn a ok ∈ new →
      p ∈ s.relayManager.reserved ∨
        s.relayManager.reserved.length < s.relayManager.inUse.len + max) ∧
    (∀ relay s' new, s.step env (.event (.reservationReqAccepted relay)) = some s' →
      s'.swarm.calls = s.swarm.calls ++ new →
      ∃ gone : List PeerId, new = gone.map .disconnectPeerId ∧
        gone.length = if relay ∉ s.relayManager.reserved ∧
          s.relayManager.reserved.length = s.relayManager.inUse.len + max then 1 else 0) := by
  have inv : Fits max s ∧ InSync s := by
    refine run.state_invariant (I := fun s => Fits max s ∧ InSync s) ⟨.start, .start⟩ ?_
    intro _ s s' i inv keeps returned
    obtain ⟨fits, sync⟩ := inv
    obtain ⟨r, stepped⟩ := step_stepped returned
    exact ⟨fits.stepped stepped, (sync.stepped fits.wf stepped).mpr keeps⟩
  obtain ⟨fits, sync⟩ := inv
  refine ⟨fits.fits, ?_, fun relay s' new => accepted_prunes fits sync⟩
  intro p protocols listenAddrs s' new a ok returned calls asked
  have room := identify_requests returned calls asked
  unfold RelayManager.canReserve at room
  rw [fits.maxRelays] at room
  split at room
  · next held => exact .inl held
  · exact .inr (of_decide_eq_true room)

/-- The relays asked for a reservation, by the requests that the swarm took. -/
def requestedRelays (calls : List Call) : List PeerId :=
  calls.filterMap fun call =>
    match call with
    | .listenOn addr true => RelayManager.extractRelayPeer addr
    | _ => none

/-- A relay introduces itself. -/
def identifyRelay (host : Byte) : Input :=
  .event (.identifyReceived ⟨[host]⟩ ["/libp2p/circuit/relay/0.2.0/hop"] [lanAddr host])

/-- One relay is asked and accepts. -/
theorem reservations_fit_one : ∃ s, Run (SavedNetwork.step .calm)
    (fun _ s i => s.keepsSync .calm i) (.start ⟨[0]⟩ 4)
    [identifyRelay 1, .event (.reservationReqAccepted ⟨[1]⟩)] s ∧
    s.relayManager.reserved.length ≤ s.relayManager.inUse.len + 4 := by
  obtain ⟨s, run, _⟩ : ∃ s, Run (SavedNetwork.step .calm)
      (fun _ s i => i.expires = false ∧ s.exitsEarly .calm i = false) (.start ⟨[0]⟩ 4)
      [identifyRelay 1, .event (.reservationReqAccepted ⟨[1]⟩)] s ∧
      decide (s.relayManager.reserved = [⟨[1]⟩]) = true :=
    Run.exists_of_replay (by decide)
  have run' := run.mono fun _ _ _ => keepsSync_of_onTime
  exact ⟨s, run', (reservations_fit .calm ⟨[0]⟩ 4 run').1⟩

/-- The two events of a reservation: a relay introduces itself, and a relay accepts. -/
def Input.reserves : Input → Bool
  | .event (.identifyReceived _ _ _) => true
  | .event (.reservationReqAccepted _) => true
  | _ => false

/-- Five relays introduce themselves, and some of them accept. -/
def fiveRelays (accept : List Byte) : List Input :=
  [1, 2, 3, 4, 5].map identifyRelay ++
    accept.map fun host => .event (.reservationReqAccepted ⟨[host]⟩)

/-- **Requests that are out exceed the capacity, and accepting them prunes**: five relays are
asked before the first of them accepts, and when the fifth accepts one is given up. -/
theorem requests_exceed_capacity :
    ¬ (∀ (env : Env) (me : PeerId) (max : Nat) (h : List Input) (s : SavedNetwork),
      Run (SavedNetwork.step env) (fun _ _ i => i.reserves = true) (.start me max) h s →
      (s.relayManager.reserved ++ requestedRelays s.swarm.calls).dedup.length ≤
        s.relayManager.inUse.len + max) ∧
    ¬ (∀ (env : Env) (me : PeerId) (max : Nat) (h : List Input) (s s' : SavedNetwork)
      (relay : PeerId), Run (SavedNetwork.step env) (fun _ _ i => i.reserves = true)
        (.start me max) h s →
      relay ∈ requestedRelays s.swarm.calls →
      s.step env (.event (.reservationReqAccepted relay)) = some s' →
      ∀ new, s'.swarm.calls = s.swarm.calls ++ new → ∀ q, .disconnectPeerId q ∉ new) := by
  constructor
  · intro always
    obtain ⟨s, run, ended⟩ : ∃ s, Run (SavedNetwork.step .calm) (fun _ _ i => i.reserves = true)
        (.start ⟨[0]⟩ 4) (fiveRelays []) s ∧
        decide ((s.relayManager.reserved ++ requestedRelays s.swarm.calls).dedup.length = 5 ∧
          s.relayManager.inUse.len = 0) = true :=
      Run.exists_of_replay (by decide)
    have within := always _ _ _ _ s run
    obtain ⟨five, idle⟩ := of_decide_eq_true ended
    omega
  · intro always
    obtain ⟨s, run, ended⟩ : ∃ s, Run (SavedNetwork.step .calm) (fun _ _ i => i.reserves = true)
        (.start ⟨[0]⟩ 4) (fiveRelays [1, 2, 3, 4]) s ∧
        (decide (⟨[5]⟩ ∈ requestedRelays s.swarm.calls) &&
          (s.step .calm (.event (.reservationReqAccepted ⟨[5]⟩))).any fun s' =>
            decide (s'.swarm.calls = s.swarm.calls ++ [Call.disconnectPeerId ⟨[5]⟩])) = true :=
      Run.exists_of_replay (by decide)
    rw [Bool.and_eq_true, decide_eq_true_eq] at ended
    obtain ⟨asked, pruned⟩ := ended
    obtain ⟨s', returned, calls⟩ := (Option.any_eq_true _ _).mp pruned
    exact always _ _ _ _ s s' _ run asked returned _ (of_decide_eq_true calls) _
      List.mem_cons_self

end Saved
