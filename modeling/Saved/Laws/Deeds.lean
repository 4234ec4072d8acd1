import Saved.Laws.ListenAddress
import Saved.Laws.Destination

/-!
# What a turn may do

A turn acts by operations of its view and by calls. `Input.allows` says which of them an input
allows, in the state they are done in: addresses are learned and expire as the input reports them, a
dial goes to the best address of a peer that the input is about or is one that a handle asked for, a
connection is closed for a better one that is up, a relay is disconnected when it carries nothing,
and so on through every kind of call. `step_within` says that a turn, from every state and whatever
the calls answer, does what its input allows and nothing else.

There is one lemma for each method, with what that method may do, and one that puts them together by
the parts of a handler (`part_within`).
-/

namespace Saved

open Saved.Lib SavedNetwork

/-- **A deed**: an operation of the view, or a call. -/
inductive Deed where
  | op (op : ViewOp)
  | call (call : Call)

/-- A change that is no deed: the view stays, and no call is made. -/
structure Idle (s t : SavedNetwork) : Prop where
  view : t.view = s.view
  calls : t.swarm.calls = s.swarm.calls
  localPeerId : t.swarm.localPeerId = s.swarm.localPeerId

/-- **One deed that may be done**, or a change that is none. -/
inductive Does (may : SavedNetwork → Deed → Prop) :
    SavedNetwork → Option Deed → SavedNetwork → Prop
  | idle {s t} : Idle s t → Does may s none t
  | op {s} {op : ViewOp} : may s (.op op) → Does may s (some (.op op)) (s.after op)
  | call {s} {call : Call} : may s (.call call) → Does may s (some (.call call)) (s.tell [call])

/-- **Only what may be done is done** from one state to another. -/
def Within (may : SavedNetwork → Deed → Prop) (s t : SavedNetwork) : Prop :=
  ∃ deeds, Trace (Does may) s deeds t

variable {env : Env} {p : PeerId} {a : Multiaddr} {c : ConnectionId} {s s' t u : SavedNetwork}
  {may may' : SavedNetwork → Deed → Prop}

namespace Within

/-- Doing nothing is within every permission. -/
theorem refl (s : SavedNetwork) : Within may s s := ⟨[], .done⟩

/-- The deeds of two steps are those of the first and then of the second. -/
theorem trans (first : Within may s t) (second : Within may t u) : Within may s u := by
  obtain ⟨_, trace⟩ := first
  obtain ⟨_, trace'⟩ := second
  exact ⟨_, trace.trans trace'⟩

/-- A permission may be widened. -/
theorem mono (weaker : ∀ s d, may s d → may' s d) (within : Within may s t) :
    Within may' s t := by
  obtain ⟨deeds, trace⟩ := within
  refine ⟨deeds, trace.mono fun s o t does => ?_⟩
  cases does with
  | idle idle => exact .idle idle
  | op allowed => exact .op (weaker _ _ allowed)
  | call allowed => exact .call (weaker _ _ allowed)

/-- A step that neither changes the view nor calls the swarm does no deed. -/
theorem idle (view : t.view = s.view) (calls : t.swarm.calls = s.swarm.calls)
    (localPeerId : t.swarm.localPeerId = s.swarm.localPeerId) : Within may s t :=
  ⟨[], .of_silent (.idle ⟨view, calls, localPeerId⟩)⟩

/-- One operation on the view. -/
theorem op (op : ViewOp) (allowed : may s (.op op)) : Within may s (s.after op) :=
  ⟨_, .of_visible (.op allowed)⟩

/-- One call to the swarm. -/
theorem call (call : Call) (allowed : may s (.call call)) : Within may s (s.tell [call]) :=
  ⟨_, .of_visible (.call allowed)⟩

/-- Calls one after another, each of them allowed whichever of them were made before. -/
theorem tell {calls : List Call} {s : SavedNetwork}
    (allowed : ∀ call ∈ calls, ∀ done, may (s.tell done) (.call call)) :
    Within may s (s.tell calls) := by
  induction calls generalizing s with
  | nil =>
    have same : s.tell [] = s := by rw [SavedNetwork.tell, List.append_nil]
    rw [same]
    exact .refl s
  | cons call calls ih =>
    have first : Within may s (s.tell [call]) := by
      refine .call call ?_
      have here := allowed call List.mem_cons_self []
      rwa [SavedNetwork.tell, List.append_nil] at here
    have twice : ∀ done, (s.tell [call]).tell done = s.tell (call :: done) := fun done => by
      simp only [SavedNetwork.tell, List.append_assoc, List.singleton_append]
    rw [← twice]
    refine first.trans (ih fun later made done => ?_)
    rw [twice]
    exact allowed later (List.mem_cons_of_mem _ made) _

/-- **What every deed keeps, the whole keeps.** -/
theorem invariant {I : SavedNetwork → Prop} (idle : ∀ s t, Idle s t → I s → I t)
    (op : ∀ s op, may s (.op op) → I s → I (s.after op))
    (call : ∀ s call, may s (.call call) → I s → I (s.tell [call])) (within : Within may s t)
    (init : I s) : I t := by
  obtain ⟨deeds, trace⟩ := within
  refine trace.invariant (fun s t does => ?_) (fun s deed t _ does => ?_) init
  · cases does with
    | idle still => exact idle s t still
  · cases does with
    | op allowed => exact op s _ allowed
    | call allowed => exact call s _ allowed

end Within

/-! ## Methods -/

/-- The connections that a reconcile closes: the best address of the peer is up, and they stand on
others. -/
def SavedNetwork.spare (s : SavedNetwork) (p : PeerId) : List ConnectionId :=
  match s.view.addressesOf p with
  | [] => []
  | best :: rest =>
    if s.view.isConnectedOver p best.address then rest.flatMap (·.activeConnections) else []

/-- **What a reconcile of a peer may do**: dial what is to be dialed, mark the failure of that, and
close what is spare when it is the prune leader. -/
def SavedNetwork.mayReconcile (env : Env) (p : PeerId) (s : SavedNetwork) : Deed → Prop
  | .call (.dial a ok) => s.dialTarget p = some a ∧ ok = env.dialOk s.asked
  | .call (.closeConnection c) => s.isPruneLeader p = true ∧ c ∈ s.spare p
  | .op (.markFailure _ _ q a) => q = p ∧ s.dialTarget p = some a
  | _ => False

/-- The peer is down: the best address is the target, whoever leads. -/
theorem dialTarget_down {best : AddressMetadata} {rest : List AddressMetadata}
    (vector : s.view.addressesOf p = best :: rest) (down : s.view.isConnected p = false) :
    s.dialTarget p = some best.address := by
  unfold dialTarget
  rw [vector]
  simp [isConnectedOver_of_down down, down]

/-- The best address is idle: the leader moves the connection there, also while the peer is up. -/
theorem dialTarget_migrates {best : AddressMetadata} {rest : List AddressMetadata}
    (vector : s.view.addressesOf p = best :: rest)
    (off : s.view.isConnectedOver p best.address = false) (leader : s.isPruneLeader p = true) :
    s.dialTarget p = some best.address := by
  unfold dialTarget
  rw [vector]
  simp [off, leader]

/-- The best address is in use: what may be closed are the connections of the others. -/
theorem spare_of_up {best : AddressMetadata} {rest : List AddressMetadata}
    (vector : s.view.addressesOf p = best :: rest)
    (held : s.view.isConnectedOver p best.address = true) :
    s.spare p = rest.flatMap (·.activeConnections) := by
  unfold SavedNetwork.spare
  rw [vector]
  exact if_pos held

/-- A dial that fails, and its mark. -/
theorem within_failed {a : Multiaddr} (target : s.dialTarget p = some a)
    (failed : env.dialOk s.asked = false) : Within (mayReconcile env p) s
      ((s.tell [.dial a false]).markFailure env p a) :=
  have dialed : Within (mayReconcile env p) s (s.tell [.dial a false]) :=
    .call (.dial a false) ⟨target, failed.symm⟩
  dialed.trans (.op (.markFailure (env.clock s.clockReads 0) (env.readings (s.clockReads + 1)) p a)
      ⟨rfl, target⟩)

/-- The law of reconciliation gives the deeds in the order of the source, and each of the four is
one that the state before it allows. -/
theorem Reconciled.within (reconciled : Reconciled env p s s') :
    Within (mayReconcile env p) s s' := by
  induction reconciled with
  | unknown | keep | wait => exact .refl _
  | prune vector held leader =>
    refine .tell fun call made done => ?_
    obtain ⟨c, spare, rfl⟩ := List.mem_map.mp made
    exact ⟨leader, (spare_of_up vector held).symm ▸ spare⟩
  | dialed vector down ok => exact .call (.dial _ _) ⟨dialTarget_down vector down, ok.symm⟩
  | redial vector down failed _ ih =>
    exact (within_failed (dialTarget_down vector down) failed).trans ih
  | migrate vector held _ leader ok =>
    exact .call (.dial _ _) ⟨dialTarget_migrates vector held leader, ok.symm⟩
  | migrateFailed vector held _ leader failed =>
    exact within_failed (dialTarget_migrates vector held leader) failed

/-- The permission of the method itself. -/
theorem reconcile_within (returned : s.reconcilePeerConnections env p = some s') :
    Within (mayReconcile env p) s s' := (reconciled_of_returned returned).within

/-- What learning an address may do. -/
def SavedNetwork.mayAdd (env : Env) (entry : PeerId × Multiaddr) (s : SavedNetwork) : Deed → Prop
  | .op (.addAddress _ q b) => (q, b) = entry ∧ shouldSkipForDial b = false
  | .call (.kadAddAddress q b) =>
    (q, b) = entry ∧ shouldSkipForDial b = false ∧ s.swarm.kad.isSome = true
  | deed => s.mayReconcile env entry.1 deed

/-- What the expiry of an address may do. -/
def SavedNetwork.mayRemove (env : Env) (entry : PeerId × Multiaddr) (s : SavedNetwork) :
    Deed → Prop
  | .op (.removeAddress _ q b) => (q, b) = entry
  | .call (.kadRemoveAddress q b) => (q, b) = entry ∧ s.swarm.kad.isSome = true
  | deed => s.mayReconcile env entry.1 deed

/-- The reconciliation inside `on_add_address`. -/
theorem mayAdd_of_mayReconcile {entry : PeerId × Multiaddr} {deed : Deed}
    (allowed : s.mayReconcile env entry.1 deed) : s.mayAdd env entry deed := by
  cases deed with
  | op op =>
    cases op with
    | addAddress => exact absurd allowed id
    | _ => exact allowed
  | call call =>
    cases call with
    | kadAddAddress => exact absurd allowed id
    | _ => exact allowed

/-- The reconciliation inside `on_remove_address`. -/
theorem mayRemove_of_mayReconcile {entry : PeerId × Multiaddr} {deed : Deed}
    (allowed : s.mayReconcile env entry.1 deed) : s.mayRemove env entry deed := by
  cases deed with
  | op op =>
    cases op with
    | removeAddress => exact absurd allowed id
    | _ => exact allowed
  | call call =>
    cases call with
    | kadRemoveAddress => exact absurd allowed id
    | _ => exact allowed

/-- A word to Kademlia is said only where Kademlia is on, so only there it has to be allowed. -/
theorem tellKad_within {call : Call} (allowed : s.swarm.kad.isSome = true → may s (.call call)) :
    Within may s (s.tellKad call) := by
  unfold SavedNetwork.tellKad
  split
  · next on => exact .call call (allowed on)
  · exact .refl s

/-- `on_add_address` skips what it must not dial, and else adds, tells Kademlia and reconciles. -/
theorem onAddAddress_within {entry : PeerId × Multiaddr}
    (returned : s.onAddAddress env entry.1 entry.2 = some s') :
    Within (mayAdd env entry) s s' := by
  unfold SavedNetwork.onAddAddress at returned
  split at returned
  · cases returned
    exact .refl s
  · next kept =>
    have added : Within (mayAdd env entry) s
        (s.onView env fun now view => (view.addAddress now entry.1 entry.2).2) :=
      .op (.addAddress (env.readings s.clockReads) entry.1 entry.2)
        ⟨rfl, Bool.eq_false_iff.mpr kept⟩
    dsimp only at returned
    split at returned
    · cases returned
      exact added
    · have told : ∀ t : SavedNetwork,
          Within (mayAdd env entry) t (t.tellKad (.kadAddAddress entry.1 entry.2)) :=
        fun t => tellKad_within fun on => ⟨rfl, Bool.eq_false_iff.mpr kept, on⟩
      refine (added.trans (told _)).trans ((reconcile_within returned).mono ?_)
      exact fun _ _ => mayAdd_of_mayReconcile

/-- `on_remove_address` has no test to pass: it removes and reconciles. -/
theorem onRemoveAddress_within {entry : PeerId × Multiaddr}
    (returned : s.onRemoveAddress env entry.1 entry.2 = some s') :
    Within (mayRemove env entry) s s' := by
  have removed : Within (mayRemove env entry) s
      (s.onView env fun now view => view.removeAddress now entry.1 entry.2) :=
    .op (.removeAddress (env.readings s.clockReads) entry.1 entry.2) rfl
  have told : ∀ t : SavedNetwork,
      Within (mayRemove env entry) t (t.tellKad (.kadRemoveAddress entry.1 entry.2)) :=
    fun t => tellKad_within fun on => ⟨rfl, on⟩
  refine (removed.trans (told _)).trans ((reconcile_within returned).mono ?_)
  exact fun _ _ => mayRemove_of_mayReconcile

/-- What a switch to active mode may do. -/
def SavedNetwork.maySwitch (s : SavedNetwork) : Deed → Prop
  | .call .startMdns => s.swarm.mdns = false
  | .call (.getClosestPeers target) => target ∈ s.targetPeers ∧ s.swarm.kad.isSome = true
  | _ => False

/-- The loop over the missing targets stops at the first query that fails. What was asked before is
asked. -/
theorem kadFindPeers_within {targets : List PeerId}
    (all : ∀ target ∈ targets, target ∈ s.targetPeers) :
    (targets.forM kadFindPeer).Ensures s fun _ t => Within maySwitch s t := by
  have loop : (targets.forM kadFindPeer).Ensures s (Proc.Exits
      (fun _ t => Within maySwitch s t ∧ t.targetPeers = s.targetPeers)
      fun _ t => Within maySwitch s t) := by
    refine Proc.ensures_forM (I := fun t => Within maySwitch s t ∧ t.targetPeers = s.targetPeers)
      ⟨.refl s, rfl⟩ ?_
    intro target listed t before
    obtain ⟨within, targets⟩ := before
    rw [ensures_kadFindPeer]
    have here : target ∈ t.targetPeers := targets ▸ all target listed
    refine ⟨fun on => ⟨within.trans ?_, targets⟩, fun _ => within⟩
    exact .call (.getClosestPeers target) ⟨here, on⟩
  refine loop.mono fun r t exits => ?_
  cases r with
  | error e => exact exits
  | ok _ => exact exits.1

/-- The rest of a switch to active mode, once Kademlia is on. -/
theorem searchTargets_within : (do let s ← Proc.get; s.targetPeers.toList.forM kadFindPeer :
    NetM Unit).Ensures s fun _ t => Within maySwitch s t := by
  rw [Proc.ensures_bind, Proc.ensures_get]
  exact kadFindPeers_within fun _ target => target

/-- The behaviours that are on are no deed of the view or the swarm's calls. -/
theorem withMdns_within (s : SavedNetwork) (enabled : Bool) :
    Within may s (s.withMdns enabled) := .idle rfl rfl rfl

/-- Either way the deeds are searches and the start of mDNS. -/
theorem setActiveMode_within {active : Bool} :
    (setActiveMode env active).Ensures s fun _ t => Within maySwitch s t := by
  unfold setActiveMode
  rw [Proc.ensures_bind, Proc.ensures_update, Proc.exits_ok, Proc.ensures_ite]
  refine ⟨fun _ => ?_, fun _ => ensures_setKadEnabled.mpr ⟨nofun, fun _ => .idle rfl rfl rfl⟩⟩
  rw [Proc.ensures_bind, ensures_setKadEnabled]
  refine ⟨fun _ => ?_, nofun⟩
  rw [Proc.exits_ok, Proc.ensures_bind, ensures_startMdns]
  have armed : Within maySwitch s
      ({ s with activeMode := active }.withKad (some ⟨KadMode.client.toMode⟩)) := .idle rfl rfl rfl
  refine ⟨fun _ => ?_, fun off => ⟨fun _ => ?_, fun _ => ?_⟩⟩
  · exact searchTargets_within.mono fun _ _ => armed.trans
  · have started := armed.trans (.call .startMdns (Bool.eq_false_iff.mpr off))
    have on := started.trans (withMdns_within _ true)
    exact searchTargets_within.mono fun _ _ => on.trans
  · exact armed.trans (.call .startMdns (Bool.eq_false_iff.mpr off))

/-- What an update of the relays may do. -/
def SavedNetwork.mayPrune (s : SavedNetwork) : Deed → Prop
  | .call (.disconnectPeerId relay) => relay ∉ s.relayManager.inUse
  | _ => False

/-- Pruning disconnects spare relays, worst first, and each is one that the state at its round
allows. -/
theorem updateRelayState_within (s : SavedNetwork) : Within mayPrune s s.updateRelayState := by
  obtain ⟨gone, left, pruned⟩ := updateRelayState_pruned s
  rw [pruned.eq]
  let kept : SavedNetwork := { s.recomputeInUse with
    relayManager := { s.recomputeInUse.relayManager with reserved := left } }
  refine .trans (t := kept) (.idle rfl rfl rfl) (.tell fun call made done => ?_)
  obtain ⟨relay, spare, rfl⟩ := List.mem_map.mp made
  exact pruned.unused relay spare

/-- What the request of a reservation may do. -/
def SavedNetwork.mayReserve (env : Env) (p : PeerId) (s : SavedNetwork) : Deed → Prop
  | .call (.listenOn a ok) => ok = env.listenOk s.asked ∧ s.offersHops p = true ∧
    s.relayManager.canReserve p = true ∧
    ∃ m rest, s.view.addressesOf p = m :: rest ∧ a = listenAddr m.address p
  | _ => False

/-- A request listens over the relay, which offers hops, may be reserved and has an address; or it
does nothing. -/
theorem requestReservation_within (s : SavedNetwork) :
    Within (mayReserve env p) s (s.requestReservation env p) := by
  unfold requestReservation
  split
  · next hops =>
    split
    · exact .refl s
    · next room =>
      split
      · next m first =>
        have room : s.relayManager.canReserve p = true := by simpa using room
        refine .call (.listenOn (listenAddr m.address p) _) ⟨rfl, hops, room, ?_⟩
        obtain ⟨info, known, head⟩ := Option.bind_eq_some_iff.mp first
        obtain ⟨rest, vector⟩ := List.head?_eq_some_iff.mp head
        exact ⟨m, rest, (NetworkView.addressesOf_of_get known).trans vector, rfl⟩
      · exact .refl s
  · exact .refl s

/-! ## What an input allows -/

/-- **What an input allows**, in the state a deed is done in. -/
def Input.allows (env : Env) (i : Input) (s : SavedNetwork) : Deed → Prop
  | .op (.addAddress _ p a) => (p, a) ∈ i.offers ∧ shouldSkipForDial a = false
  | .op (.removeAddress _ p a) => (p, a) ∈ i.forgets
  | .op (.addConnection _ p c endpoint) => i = .event (.connectionEstablished p c endpoint)
  | .op (.removeConnection _ p c) => i = .event (.connectionClosed p c)
  | .op (.setProtocols p protocols) =>
    ∃ listenAddrs, i = .event (.identifyReceived p protocols listenAddrs)
  | .op (.markFailure _ _ p a) => p ∈ i.names ∧ s.dialTarget p = some a
  | .op (.setRtt p rtt) => ∃ c, i = .event (.ping p c (some rtt)) ∧
    (s.view.getConnectionAddress p c).isSome = true
  | .call (.dial a ok) => ok = env.dialOk s.asked ∧
    (i = .rpc (.dial a) ∧ a.namesPeer = true ∨ ∃ p ∈ i.names, s.dialTarget p = some a)
  | .call (.closeConnection c) => ∃ p ∈ i.names, s.isPruneLeader p = true ∧ c ∈ s.spare p
  | .call (.disconnectPeerId relay) => i.movesRelays = true ∧ relay ∉ s.relayManager.inUse
  | .call (.listenOn a ok) =>
    ∃ p protocols listenAddrs, i = .event (.identifyReceived p protocols listenAddrs) ∧
      s.mayReserve env p (.call (.listenOn a ok))
  | .call (.kadAddAddress p a) =>
    (p, a) ∈ i.offers ∧ shouldSkipForDial a = false ∧ s.swarm.kad.isSome = true
  | .call (.kadRemoveAddress p a) => (p, a) ∈ i.forgets ∧ s.swarm.kad.isSome = true
  | .call (.getClosestPeers target) => s.swarm.kad.isSome = true ∧
    (i = .rpc (.kadFindPeer target) ∨ i.movesConnections = true ∧ target ∈ s.targetPeers)
  | .call .bootstrap => s.swarm.kad.isSome = true ∧ i = .rpc .kadBootstrap
  | .call .startMdns => s.swarm.mdns = false ∧
    (i = .rpc (.setMdnsEnabled true) ∨ i.movesConnections = true)
  | .call (.send news) => news ∈ i.announces s.swarm.localPeerId

variable {i : Input} {deed : Deed}

/-- What the reconciliation of a named peer does, the input allows. The lemmas that follow do the
same for the other permissions. -/
theorem allows_of_mayReconcile (named : p ∈ i.names) (allowed : s.mayReconcile env p deed) :
    i.allows env s deed := by
  cases deed with
  | op op =>
    cases op with
    | markFailure =>
      obtain ⟨rfl, target⟩ := allowed
      exact ⟨named, target⟩
    | _ => exact False.elim allowed
  | call call =>
    cases call with
    | dial => exact ⟨allowed.2, .inr ⟨p, named, allowed.1⟩⟩
    | closeConnection => exact ⟨p, named, allowed⟩
    | _ => exact False.elim allowed

/-- What the taking up of an offered address does, the input allows. -/
theorem allows_of_mayAdd {entry : PeerId × Multiaddr} (offered : entry ∈ i.offers)
    (allowed : s.mayAdd env entry deed) : i.allows env s deed := by
  have named := mem_names_of_offered offered
  cases deed with
  | op op =>
    cases op with
    | addAddress =>
      obtain ⟨rfl, kept⟩ := allowed
      exact ⟨offered, kept⟩
    | _ => exact allows_of_mayReconcile named allowed
  | call call =>
    cases call with
    | kadAddAddress =>
      obtain ⟨rfl, on⟩ := allowed
      exact ⟨offered, on⟩
    | _ => exact allows_of_mayReconcile named allowed

/-- What the forgetting of an expired address does, the input allows. -/
theorem allows_of_mayRemove {entry : PeerId × Multiaddr} (expired : entry ∈ i.forgets)
    (allowed : s.mayRemove env entry deed) : i.allows env s deed := by
  have named := mem_names_of_expired expired
  cases deed with
  | op op =>
    cases op with
    | removeAddress =>
      obtain rfl := allowed
      exact expired
    | _ => exact allows_of_mayReconcile named allowed
  | call call =>
    cases call with
    | kadRemoveAddress =>
      obtain ⟨rfl, on⟩ := allowed
      exact ⟨expired, on⟩
    | _ => exact allows_of_mayReconcile named allowed

/-- What a switch of the mode does, an input that moves connections allows. -/
theorem allows_of_maySwitch (moves : i.movesConnections = true) (allowed : s.maySwitch deed) :
    i.allows env s deed := by
  cases deed with
  | op op => exact False.elim allowed
  | call call =>
    cases call with
    | startMdns => exact ⟨allowed, .inr moves⟩
    | getClosestPeers => exact ⟨allowed.2, .inr ⟨moves, allowed.1⟩⟩
    | _ => exact False.elim allowed

/-- What the relay update does, an input that moves relays allows. -/
theorem allows_of_mayPrune (moves : i.movesRelays = true) (allowed : s.mayPrune deed) :
    i.allows env s deed := by
  cases deed with
  | op op => exact False.elim allowed
  | call call =>
    cases call with
    | disconnectPeerId => exact ⟨moves, allowed⟩
    | _ => exact False.elim allowed

/-- What a request for a reservation does, the identify answer that led to it allows. -/
theorem allows_of_mayReserve {protocols : List StreamProtocol} {listenAddrs : List Multiaddr}
    (here : i = .event (.identifyReceived p protocols listenAddrs))
    (allowed : s.mayReserve env p deed) : i.allows env s deed := by
  cases deed with
  | op op => exact False.elim allowed
  | call call =>
    cases call with
    | listenOn => exact ⟨p, protocols, listenAddrs, here, allowed⟩
    | _ => exact False.elim allowed

/-- An announcement is a deed of its own kind: which ones an input makes is part of what it
allows. -/
theorem broadcast_within {news : SavedNetworkEvent}
    (announced : news ∈ i.announces s.swarm.localPeerId) :
    (broadcast env news).Ensures s fun _ t => Within (i.allows env) s t :=
  ensures_broadcast.mpr ⟨fun _ => .call (.send news) announced,
    fun _ => .call (.send news) announced⟩

/-- A ping stores its time when the view knows the connection that it came over. -/
theorem onPing_within {result : Option Duration} (here : i = .event (.ping p c result)) :
    Within (i.allows env) s (s.onPing p c result) := by
  subst here
  unfold onPing
  split
  · next rtt =>
    split
    · next known => exact .op (.setRtt p rtt) ⟨c, rfl, known⟩
    · exact .refl s
  · exact .refl s

/-- **A part does what an input that asks for it allows.** -/
theorem part_within {part : Part} (asked : part.AskedBy i) :
    (part.run env).Ensures s fun _ t => Within (i.allows env) s t := by
  cases part with
  | onAddAddress p a =>
    refine Proc.ensures_attempt.mpr fun t returned => ?_
    have added : Within (mayAdd env (p, a)) s t := onAddAddress_within returned
    exact added.mono fun _ _ => allows_of_mayAdd asked
  | onRemoveAddress p a =>
    refine Proc.ensures_attempt.mpr fun t returned => ?_
    have removed : Within (mayRemove env (p, a)) s t := onRemoveAddress_within returned
    exact removed.mono fun _ _ => allows_of_mayRemove asked
  | addConnection p c endpoint =>
    exact Proc.ensures_update.mpr
      (.op (.addConnection (env.readings s.clockReads) p c endpoint) asked)
  | removeConnection p c =>
    exact Proc.ensures_update.mpr (.op (.removeConnection (env.readings s.clockReads) p c) asked)
  | setProtocols p protocols =>
    exact Proc.ensures_update.mpr (.op (.setProtocols p protocols) asked)
  | onPing p c result => exact Proc.ensures_update.mpr (onPing_within asked)
  | broadcast news => exact broadcast_within (asked _)
  | listeningOn a =>
    obtain rfl : i = .event (.newListenAddr a) := asked
    exact ensures_listeningOn (broadcast_within List.mem_cons_self)
  | switchOpened p | switchClosed p =>
    refine ensures_switches rfl (.refl s) fun active => ?_
    exact setActiveMode_within.mono fun _ _ within =>
      within.mono fun _ _ => allows_of_maySwitch asked.1
  | reconcile p =>
    refine Proc.ensures_attempt.mpr fun t returned => ?_
    exact (reconcile_within returned).mono fun _ _ => allows_of_mayReconcile asked.2
  | updateRelayState =>
    exact Proc.ensures_update.mpr
      ((updateRelayState_within s).mono fun _ _ => allows_of_mayPrune asked)
  | register relay => exact Proc.ensures_update.mpr (.idle rfl rfl rfl)
  | requestReservation p =>
    obtain ⟨protocols, addrs, here⟩ := asked
    exact Proc.ensures_update.mpr
      ((requestReservation_within s).mono fun _ _ => allows_of_mayReserve here)
  | natStatus new => exact Proc.ensures_update.mpr (.idle rfl rfl rfl)

/-- So a handler does what its event allows, since the event asks for all of its parts. -/
theorem onSwarmEvent_within (event : SwarmEvent) :
    (onSwarmEvent env event).Ensures s fun _ t =>
      Within ((Input.event event).allows env) s t := by
  rw [onSwarmEvent_parts]
  exact .loop (K := Within _) .trans .refl fun part mem _ => part_within (askedBy_of_mem mem)

/-- One case for each request. Most do a single deed; those on targets also switch the mode or
search. -/
theorem dispatchRpc_within {rpc : SavedNetworkRpc} (returned : dispatchRpc env rpc s = some s') :
    Within ((Input.rpc rpc).allows env) s s' := by
  cases rpc with
  | setMdnsEnabled enabled =>
    refine Proc.Ensures.of_exec (m := setMdnsEnabled env enabled) ?_ returned
    cases enabled with
    | false => exact ensures_stopMdns.mpr (withMdns_within s false)
    | true =>
      rw [ensures_startMdns]
      refine ⟨fun _ => .refl s, fun off => ?_⟩
      have started : Within ((Input.rpc (.setMdnsEnabled true)).allows env) s
          (s.tell [.startMdns]) :=
        .call .startMdns ⟨Bool.eq_false_iff.mpr off, .inl rfl⟩
      -- the call is made before it is known whether mDNS starts
      exact ⟨fun _ => started.trans (withMdns_within _ true), fun _ => started⟩
  | setKadEnabled enabled mode =>
    refine Proc.Ensures.of_exec (m := setKadEnabled enabled mode) ?_ returned
    exact ensures_setKadEnabled.mpr ⟨fun _ => .idle rfl rfl rfl, fun _ => .idle rfl rfl rfl⟩
  | kadFindPeer target =>
    refine Proc.Ensures.of_exec (m := kadFindPeer target) ?_ returned
    rw [ensures_kadFindPeer]
    exact ⟨fun on => .call (.getClosestPeers target) ⟨on, .inl rfl⟩, fun _ => .refl s⟩
  | kadBootstrap =>
    refine Proc.Ensures.of_exec (m := kadBootstrap env) ?_ returned
    rw [ensures_kadBootstrap]
    refine ⟨fun on => ?_, fun _ => .refl s⟩
    have told : Within ((Input.rpc .kadBootstrap).allows env) s (s.tell [.bootstrap]) :=
      .call .bootstrap ⟨on, rfl⟩
    exact ⟨fun _ => told, fun _ => told⟩
  | dial addr =>
    refine Proc.Ensures.of_exec (m := dial env addr) ?_ returned
    rw [ensures_dial]
    refine ⟨fun named => ?_, fun _ => .refl s⟩
    have told : Within ((Input.rpc (.dial addr)).allows env) s
        (s.tell [.dial addr (env.dialOk s.asked)]) :=
      .call (.dial addr _) ⟨rfl, .inl ⟨rfl, named⟩⟩
    exact ⟨fun _ => told, fun _ => told⟩
  | addTargetPeer target | removeTargetPeer target =>
    cases returned
    exact .idle rfl rfl rfl

/-- **A turn does what its input allows, and nothing else.** -/
theorem step_within (returned : s.step env i = some s') : Within (i.allows env) s s' := by
  cases i with
  | event event => exact (onSwarmEvent_within event).of_exec returned
  | rpc rpc => exact dispatchRpc_within returned

end Saved
