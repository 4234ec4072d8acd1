import Saved.Laws.Moments

/-!
# The moments of a turn are what happens in it

`moments_traces`: the moments of a turn are what is visible of a trace of `Happens`, and where the
turn returns the trace ends in the state it leaves. There is one lemma for each handler that changes
the view, and each read of a reconcile is shown to be of a fresh vector on the way.

So every dial of a turn is the dial of one of its reads, or the request of a handle
(`dialed_of_moments`). And what is decided by the address vectors is an invariant of every run when
the operations of the turns keep it, and the failures of dials do (`view_run`).
-/

namespace Saved

open Saved.Lib SavedNetwork

variable {env : Env} {since : Nat} {p : PeerId} {a : Multiaddr} {c : ConnectionId}
  {s s' t u : SavedNetwork} {l : List Moment} {now : Readings} {failed : Instant}

/-! ## A reconcile by what it dials -/

/-- What a reconcile dials, by the questions it asks: the best address, unless a connection stands
on it, or the peer is connected and another node leads. -/
theorem dialTarget_eq_some : s.dialTarget p = some a ↔
    s.view.addressesOf p ≠ [] ∧ s.bestAddr p = a ∧ s.view.isConnectedOver p a = false ∧
      (s.view.isConnected p = true → s.isPruneLeader p = true) := by
  unfold dialTarget bestAddr
  cases s.view.addressesOf p with
  | nil => simp
  | cons best rest =>
    simp only [List.headD_cons, ne_eq, reduceCtorEq, not_false_eq_true, true_and]
    split
    · next up =>
      refine ⟨nofun, fun all => ?_⟩
      rw [← all.1, up] at all
      cases all.2.1
    · next down =>
      have down' := Bool.eq_false_iff.mpr down
      split
      -- connected, and another node leads: the dial is the other's to make
      · next waits =>
        rw [Bool.and_eq_true, Bool.not_eq_true'] at waits
        exact ⟨nofun, fun all => absurd ((all.2.2 waits.1).symm.trans waits.2) nofun⟩
      · next goes =>
        rw [Bool.and_eq_true, Bool.not_eq_true', not_and, Bool.not_eq_false] at goes
        constructor
        · intro same
          cases same
          exact ⟨rfl, down', goes⟩
        · exact fun all => congrArg some all.1

/-- **One call of reconcile**: with nothing to dial it closes connections at most; otherwise it
dials, and marks a failure, and calls itself when the peer has no connection. -/
theorem reconcileFrom_succ (env : Env) (p : PeerId) (depth : Nat) (s : SavedNetwork) :
    ∃ closes, dialed closes = [] ∧ s.reconcileFrom env p (depth + 1) =
      match s.dialTarget p with
      | none => some (s.tell closes)
      | some a =>
        if env.dialOk s.asked then some (s.tell [.dial a true])
        else if s.view.isConnected p then some (s.dialFailed env p)
        else (s.dialFailed env p).reconcileFrom env p depth := by
  unfold dialTarget dialFailed bestAddr
  cases vector : s.view.addressesOf p with
  | nil => exact ⟨[], rfl, by rw [reconcileFrom_unknown vector, tell_nil]⟩
  | cons best rest =>
    rw [reconcileFrom_known vector]
    simp only [List.headD_cons]
    cases up : s.view.isConnectedOver p best.address with
    | true =>
      cases leads : s.isPruneLeader p with
      | true => exact ⟨_, dialed_closes (rest.flatMap (·.activeConnections)), by simp⟩
      | false => exact ⟨[], rfl, by simp [tell_nil]⟩
    | false =>
      refine ⟨[], rfl, ?_⟩
      cases connected : s.view.isConnected p <;> cases leads : s.isPruneLeader p <;>
        cases answer : env.dialOk s.asked <;> simp [tell_nil]

/-! ## The traces -/

/-- A failure reads the clock; nothing turns it back. -/
theorem afterRead_clockReads_le (s : SavedNetwork) (p : PeerId) :
    s.clockReads ≤ (s.afterRead env p).clockReads := by
  unfold SavedNetwork.afterRead
  split
  · exact Nat.le_refl _
  · split
    · exact Nat.le_refl _
    · exact Nat.le_add_right _ _

/-- The clock is never unread. -/
theorem clockReads_le (trace : Trace (Happens env since) s l t) : s.clockReads ≤ t.clockReads := by
  refine trace.invariant (I := fun t => s.clockReads ≤ t.clockReads) ?_ ?_ (Nat.le_refl _)
  · intro u v step le
    cases step with
    | aside aside => exact aside.clockReads ▸ le
  · intro u x v _ step le
    cases step with
    | op => exact le.trans (Nat.le_add_right _ _)
    | read => exact le.trans (afterRead_clockReads_le _ _)
    | request | settled => exact le

/-- A vector stays fresh while nothing is done to it and the clock is not read. -/
theorem Fresh.aside (fresh : Fresh env since p s) (aside : Aside s t) : Fresh env since p t := by
  obtain ⟨n, recent, last, resorted⟩ := fresh
  exact ⟨n, recent, aside.clockReads.trans last, aside.addresses ▸ resorted⟩

/-- A fresh vector was sorted at a reading that was made. -/
theorem Fresh.recent (fresh : Fresh env since p s) : since ≤ s.clockReads := by
  obtain ⟨n, recent, last, _⟩ := fresh
  exact last ▸ Nat.le_succ_of_le recent

namespace Traces

variable {l' : List Moment} {left : Option SavedNetwork}

/-- A trace with its end is one that leads there. -/
theorem of_trace (trace : Trace (Happens env since) s l t) : Traces env since s l (some t) :=
  ⟨t, trace, fun _ same => (Option.some.inj same).symm⟩

/-- A step aside is a trace without moments. -/
theorem of_aside (aside : Aside s t) : Traces env since s [] (some t) :=
  of_trace (.of_silent (.aside aside))

/-- Moments that happened before come first, and the rest decides where it leads. -/
theorem prepend (trace : Trace (Happens env since) s l t) (rest : Traces env since t l' left) :
    Traces env since s (l ++ l') left := by
  obtain ⟨u, trace', ends⟩ := rest
  exact ⟨u, trace.trans trace', ends⟩

/-- **A sequence of two.** -/
theorem bind {M : SavedNetwork → List Moment} {f : SavedNetwork → Option SavedNetwork}
    (recent : since ≤ s.clockReads) (first : Traces env since s l left)
    (next : ∀ t, since ≤ t.clockReads → Traces env since t (M t) (f t)) :
    Traces env since s (l ++ (left.map M).getD []) (left.bind f) := by
  obtain ⟨t, trace, ends⟩ := first
  cases left with
  | none => exact ⟨t, (List.append_nil l).symm ▸ trace, nofun⟩
  | some t' =>
    obtain rfl := ends t' rfl
    exact prepend trace (next t' (recent.trans (clockReads_le trace)))

/-- A change that is no part of what is seen, after the rest. -/
theorem map {g : SavedNetwork → SavedNetwork} (traces : Traces env since s l left)
    (aside : ∀ t, Aside t (g t)) : Traces env since s l (left.map g) := by
  obtain ⟨t, trace, ends⟩ := traces
  cases left with
  | none => exact ⟨t, trace, nofun⟩
  | some t' =>
    obtain rfl := ends t' rfl
    have tail := trace.trans (.of_silent (.aside (aside t')))
    exact of_trace (List.append_nil l ▸ tail)

/-- A computation that changes nothing of what is seen. -/
theorem of_ensures {α : Type} {m : NetM α} (trace : Trace (Happens env since) s l u)
    (aside : m.Ensures s fun _ t => Aside u t) : Traces env since s l (m.exec s) := by
  unfold Proc.exec
  cases ran : m s with
  | none => exact ⟨u, trace, nofun⟩
  | some exit =>
    have tail := trace.trans (.of_silent (.aside (aside exit.1 exit.2 ran)))
    exact of_trace (List.append_nil l ▸ tail)

/-- A method that only talks makes no moment, and leads where it ends. -/
theorem of_talk {α : Type} {m : NetM α} (talk : m.Ensures s fun _ t => Talk s t) :
    Traces env since s [] (m.exec s) :=
  of_ensures .done (talk.mono fun _ _ talk => talk.toAside)

/-- **A sequence of two, where the first may fail**: then the second does not run. -/
theorem proc {m : NetM Unit} {f : Unit → NetM Unit} {M : SavedNetwork → List Moment}
    (recent : since ≤ s.clockReads) (first : Traces env since s l (m.exec s))
    (next : ∀ t, since ≤ t.clockReads → m s = some (.ok (), t) →
      Traces env since t (M t) ((f ()).exec t)) :
    Traces env since s (l ++ ((m.execOk s).map M).getD []) ((m >>= f).exec s) := by
  obtain ⟨t, trace, ends⟩ := first
  unfold Proc.exec Proc.execOk at *
  rw [Proc.bind_apply]
  cases ran : m s with
  | none => exact ⟨t, (List.append_nil l).symm ▸ trace, nofun⟩
  | some exit =>
    obtain ⟨r, t'⟩ := exit
    obtain rfl := ends t' (by rw [ran]; rfl)
    cases r with
    | error e => exact of_trace ((List.append_nil l).symm ▸ trace)
    | ok _ => exact prepend trace (next t' (recent.trans (clockReads_le trace)) ran)

/-- **A reconcile.** Each failure is of the best address, so the vector is sorted again before it
is read again. -/
theorem reads {depth : Nat} {s : SavedNetwork} (fresh : Fresh env since p s) :
    Traces env since s (Saved.reads env p depth s) (s.reconcileFrom env p depth) := by
  induction depth generalizing s with
  | zero => exact ⟨s, .done, nofun⟩
  | succ depth ih =>
    obtain ⟨closes, silent, call⟩ := reconcileFrom_succ env p depth s
    have read := Trace.of_visible (Happens.read fresh)
    rw [call]
    unfold Saved.reads
    unfold SavedNetwork.afterRead at read ⊢
    cases target : s.dialTarget p with
    | none =>
      rw [target] at read
      exact prepend read (of_aside (.tell silent))
    | some a =>
      obtain ⟨known, rfl, _⟩ := dialTarget_eq_some.mp target
      rw [target] at read
      cases answer : env.dialOk s.asked with
      | true =>
        simp only [answer, if_true] at read
        exact of_trace read
      | false =>
        simp only [answer, Bool.false_eq_true, if_false] at read
        -- The failed dial has sorted the vector anew, so the next call reads a fresh one again.
        have fresh' : Fresh env since p (s.dialFailed env p) :=
          ⟨s.clockReads + 1, Nat.le_succ_of_le fresh.recent, rfl,
            NetworkView.markFailure_resorted (bestAddr_mem known)⟩
        cases up : s.view.isConnected p with
        | true => exact of_trace read
        | false => exact prepend read (ih fresh')

end Traces

/-! ## The moments of the handlers -/

/-- The moments of `on_add_address`. -/
theorem addMoments_traces (recent : since ≤ s.clockReads) (entry : PeerId × Multiaddr) :
    Traces env since s (addMoments env s entry) (s.onAddAddress env entry.1 entry.2) := by
  unfold addMoments onAddAddress
  split
  · exact .of_trace .done
  · let op : ViewOp := .addAddress (env.readings s.clockReads) entry.1 entry.2
    have learned : Trace (Happens env since) s [.op op] (s.after op) := .of_visible (.op rfl)
    have quiet : Aside (s.after op) ((s.after op).tellKad (.kadAddAddress entry.1 entry.2)) :=
      .tellKad rfl
    have told := learned.trans (.of_silent (.aside quiet))
    dsimp only
    cases new : (s.view.addAddress (env.readings s.clockReads) entry.1 entry.2).1 with
    | false => exact .of_trace learned
    | true =>
      refine .prepend told (.reads ?_)
      exact Fresh.aside ⟨s.clockReads, recent, rfl, NetworkView.addAddress_resorted⟩ quiet

/-- The moments of `on_remove_address`. -/
theorem removeMoments_traces (recent : since ≤ s.clockReads) (entry : PeerId × Multiaddr) :
    Traces env since s (removeMoments env s entry) (s.onRemoveAddress env entry.1 entry.2) := by
  let op : ViewOp := .removeAddress (env.readings s.clockReads) entry.1 entry.2
  have forgotten : Trace (Happens env since) s [.op op] (s.after op) := .of_visible (.op rfl)
  have quiet : Aside (s.after op) ((s.after op).tellKad (.kadRemoveAddress entry.1 entry.2)) :=
    .tellKad rfl
  have told := forgotten.trans (.of_silent (.aside quiet))
  refine .prepend told (.reads ?_)
  exact Fresh.aside ⟨s.clockReads, recent, rfl, NetworkView.removeAddress_resorted⟩ quiet

/-- The moments of a loop whose rounds return a state. -/
theorem loopMoments_traces {ι : Type} {round : SavedNetwork → ι → Option SavedNetwork}
    {moments : SavedNetwork → ι → List Moment} (recent : since ≤ s.clockReads)
    (each : ∀ s i, since ≤ s.clockReads → Traces env since s (moments s i) (round s i))
    (list : List ι) :
    Traces env since s (loopMoments round moments list s) (list.foldlM round s) := by
  induction list generalizing s with
  | nil => exact .of_trace .done
  | cons i list ih => exact (each s i recent).bind recent fun t later => ih later

/-- The loop over offered addresses. -/
theorem addAllMoments_traces (recent : since ≤ s.clockReads) (list : List (PeerId × Multiaddr)) :
    Traces env since s (addAllMoments env list s) (s.addAddresses env list) :=
  loopMoments_traces recent (fun _ entry later => addMoments_traces later entry) list

/-- The moments of a loop whose rounds can fail. -/
theorem forM_traces {ι : Type} {f : ι → NetM PUnit} {moments : SavedNetwork → ι → List Moment}
    (recent : since ≤ s.clockReads)
    (each : ∀ s i, since ≤ s.clockReads → Traces env since s (moments s i) ((f i).exec s))
    (list : List ι) :
    Traces env since s (loopMoments (fun s i => (f i).execOk s) moments list s)
      ((list.forM f).exec s) := by
  induction list generalizing s with
  | nil => exact .of_trace .done
  | cons i list ih => exact (each s i recent).proc recent fun t later _ => ih later

/-- One peer of a Kademlia answer. -/
theorem kadMoments_traces (recent : since ≤ s.clockReads) (peer : PeerId × List Multiaddr) :
    Traces env since s (kadMoments env s peer) ((onKadPeer env peer).exec s) := by
  refine (Traces.of_talk .broadcast).proc recent fun t later _ => ?_
  rw [Proc.exec_attempt]
  exact addAllMoments_traces later _

/-- **A handler of connections**: an operation of the view, what comes before the reconcile, the
reconcile, and what comes after. -/
theorem handlerMoments_traces {op : ViewOp} {prefix' : NetM Unit} {g : SavedNetwork → SavedNetwork}
    (recent : since ≤ s.clockReads) (timed : op.Timed env s.clockReads) (once : op.readings = 1)
    (resorted : Resorted (env.readings s.clockReads) ((s.view.apply op).addressesOf op.peer))
    (aside : prefix'.Ensures s fun _ t => Aside (s.after op) t) (rest : ∀ t, Aside t (g t)) :
    Traces env since s (handlerMoments env op prefix' s) ((do
      prefix'
      Proc.attempt (SavedNetwork.reconcilePeerConnections env op.peer)
      Proc.update g : NetM Unit).exec s) := by
  have done : Trace (Happens env since) s [.op op] (s.after op) := .of_visible (.op timed)
  have first : Traces env since s [.op op] (prefix'.exec s) := .of_ensures done aside
  refine first.proc recent fun t _ ran => ?_
  have fresh : Fresh env since op.peer t :=
    Fresh.aside ⟨s.clockReads, recent, by rw [after, once], resorted⟩ (aside _ t ran)
  rw [Proc.exec_attempt_update]
  exact (Traces.reads fresh).map rest

/-- Up to its reconcile the handler makes one operation of the view, and only talks after it. -/
theorem closedPrefix_talk : (closedPrefix env p c).Ensures s fun _ t =>
    Talk (s.after (.removeConnection (env.readings s.clockReads) p c)) t := by
  unfold closedPrefix
  rw [Proc.ensures_bind, Proc.ensures_update, Proc.exits_ok]
  refine .seq (K := Talk) .trans .broadcast fun _ t =>
    .seq (K := Talk) .trans (Proc.ensures_get.mpr (.refl _)) fun u _ => ?_
  rw [Proc.ensures_ite]
  exact ⟨fun _ => .setActiveMode, fun _ => Proc.ensures_pure.mpr (.refl _)⟩

/-- The same of an opened connection. -/
theorem openedPrefix_talk {endpoint : ConnectedPoint} :
    (openedPrefix env p c endpoint).Ensures s fun _ t =>
      Talk (s.after (.addConnection (env.readings s.clockReads) p c endpoint)) t := by
  unfold openedPrefix
  rw [Proc.ensures_bind, Proc.ensures_update, Proc.exits_ok]
  refine .seq (K := Talk) .trans .broadcast fun _ t =>
    .seq (K := Talk) .trans (Proc.ensures_get.mpr (.refl _)) fun u _ => ?_
  rw [Proc.ensures_ite, Proc.ensures_ite]
  exact ⟨fun _ => ⟨fun _ => .setActiveMode, fun _ => .setActiveMode⟩,
    fun _ => Proc.ensures_pure.mpr (.refl _)⟩

/-- So between the operation and the reconcile nothing happens that a dial depends on. -/
theorem closedPrefix_aside : (closedPrefix env p c).Ensures s fun _ t =>
    Aside (s.after (.removeConnection (env.readings s.clockReads) p c)) t :=
  closedPrefix_talk.mono fun _ _ talk => talk.toAside

/-- The same of an opened connection. -/
theorem openedPrefix_aside {endpoint : ConnectedPoint} :
    (openedPrefix env p c endpoint).Ensures s fun _ t =>
      Aside (s.after (.addConnection (env.readings s.clockReads) p c endpoint)) t :=
  openedPrefix_talk.mono fun _ _ talk => talk.toAside

/-- The handler is its prefix, its reconcile and the relay update. -/
theorem onPeerConnectionClosed_eq : onPeerConnectionClosed env p c = (do
    closedPrefix env p c
    Proc.attempt (SavedNetwork.reconcilePeerConnections env p)
    Proc.update SavedNetwork.updateRelayState) := by
  unfold onPeerConnectionClosed closedPrefix
  simp only [bind_assoc, Proc.ite_bind, pure_bind]

/-- The same of an opened connection. -/
theorem onPeerConnectionOpened_eq {endpoint : ConnectedPoint} :
    onPeerConnectionOpened env p c endpoint = (do
      openedPrefix env p c endpoint
      Proc.attempt (SavedNetwork.reconcilePeerConnections env p)
      Proc.update SavedNetwork.updateRelayState) := by
  unfold onPeerConnectionOpened openedPrefix
  simp only [bind_assoc, Proc.ite_bind, pure_bind]

/-- What the connection arm does after its reconcile. -/
def openedRest (endpoint : ConnectedPoint) (s : SavedNetwork) : SavedNetwork :=
  match relayUsed endpoint with
  | some relayId => (s.updateRelayState.register relayId).updateRelayState
  | none => s.updateRelayState

/-- A reservation that is accepted. -/
theorem register_aside (relayId : PeerId) : Aside s (s.register relayId).updateRelayState :=
  .trans (t := s.register relayId) ⟨rfl, rfl, rfl, rfl⟩ (.updateRelayState _)

/-- What the event of an opened connection does after its handler. -/
theorem openedRest_aside (endpoint : ConnectedPoint) : Aside s (openedRest endpoint s) := by
  have updated := Aside.updateRelayState s
  unfold openedRest
  split
  · exact updated.trans (register_aside _)
  · exact updated

/-- The event of an opened connection, with what follows the handler folded into the last step. -/
theorem onSwarmEvent_opened (endpoint : ConnectedPoint) :
    onSwarmEvent env (.connectionEstablished p c endpoint) = (do
      openedPrefix env p c endpoint
      Proc.attempt (SavedNetwork.reconcilePeerConnections env p)
      Proc.update (openedRest endpoint)) := by
  simp only [onSwarmEvent]
  unfold onPeerConnectionOpened openedPrefix openedRest
  simp only [bind_assoc, Proc.ite_bind, pure_bind]
  cases relayUsed endpoint <;> rfl

/-- A request for a reservation listens, and dials nobody. -/
theorem requestReservation_aside : Aside s (s.requestReservation env p) := by
  unfold requestReservation
  split
  · split
    · exact .refl s
    · split
      · exact .tell rfl
      · exact .refl s
  · exact .refl s

/-- A ping leaves the vectors. -/
theorem onPing_aside {result : Option Duration} : Aside s (s.onPing p c result) := by
  unfold onPing
  split
  · split
    · exact ⟨funext fun q => NetworkView.setRtt_addresses s.view _ q, rfl, rfl, rfl⟩
    · exact .refl s
  · exact .refl s

/-- **The moments of an event.** -/
theorem onSwarmEvent_traces (recent : since ≤ s.clockReads) (event : SwarmEvent) :
    Traces env since s (s.moments env (.event event)) ((onSwarmEvent env event).exec s) := by
  cases event with
  | newListenAddr address =>
    exact .of_talk (.seq (K := Talk) .trans (Proc.ensures_get.mpr (.refl _)) fun _ _ => .broadcast)
  | ping q d result => exact .of_aside onPing_aside
  | mdnsDiscovered list =>
    simp only [onSwarmEvent, Proc.exec_attempt]
    exact addAllMoments_traces recent list
  | mdnsExpired list =>
    simp only [onSwarmEvent, Proc.exec_attempt]
    exact loopMoments_traces recent (fun _ entry later => removeMoments_traces later entry) list
  | connectionEstablished q d endpoint =>
    rw [onSwarmEvent_opened]
    exact handlerMoments_traces recent rfl rfl NetworkView.addConnection_resorted openedPrefix_aside
      fun _ => openedRest_aside endpoint
  | connectionClosed q d =>
    simp only [onSwarmEvent, onPeerConnectionClosed_eq]
    exact handlerMoments_traces recent rfl rfl NetworkView.removeConnection_resorted
      closedPrefix_aside fun _ => .updateRelayState _
  | newExternalAddrOfPeer q b =>
    simp only [onSwarmEvent, Proc.exec_attempt]
    exact addMoments_traces recent (q, b)
  | kadGetClosestPeers result =>
    cases result with
    | none => exact .of_trace .done
    | some peers =>
      exact forM_traces recent (fun _ peer later => kadMoments_traces later peer) peers
  | identifyReceived q protocols listenAddrs =>
    let t : SavedNetwork := { s with view := s.view.setProtocols q protocols }
    let pairs := listenAddrs.map fun addr => (q, addr)
    have set : Trace (Happens env since) s [] t := .of_silent (.aside
      ⟨funext fun r => NetworkView.setProtocols_addresses s.view protocols r, rfl, rfl, rfl⟩)
    have added : Traces env since t (addAllMoments env pairs t) (t.addAddresses env pairs) :=
      addAllMoments_traces (s := t) recent pairs
    have left : (onSwarmEvent env (.identifyReceived q protocols listenAddrs)).exec s =
        (t.addAddresses env pairs).map (SavedNetwork.requestReservation env q) :=
      Proc.exec_attempt_update _ _ t
    rw [left]
    exact .prepend set (added.map fun _ => requestReservation_aside)
  | reservationReqAccepted relay =>
    exact .of_aside (register_aside relay)
  | autonatV2 addr ok => exact .of_aside ⟨rfl, rfl, rfl, rfl⟩
  | autonatStatusChanged new => exact .of_aside ⟨rfl, rfl, rfl, rfl⟩
  | outgoingConnectionError _ | externalAddrConfirmed _ | unhandled => exact .of_trace .done

/-- **The moments of a request.** -/
theorem dispatchRpc_traces (rpc : SavedNetworkRpc) :
    Traces env since s (s.moments env (.rpc rpc)) (dispatchRpc env rpc s) := by
  cases rpc with
  | setMdnsEnabled enabled => exact .of_talk .setMdnsEnabled
  | setKadEnabled enabled mode => exact .of_talk .setKadEnabled
  | kadFindPeer target => exact .of_talk .kadFindPeer
  | kadBootstrap => exact .of_talk .kadBootstrap
  | dial addr =>
    unfold SavedNetwork.moments
    simp only
    split
    · next bound =>
      refine Traces.of_ensures (m := dial env addr) (.of_visible .request) ?_
      rw [ensures_dial]
      exact ⟨fun _ => ⟨fun _ => .refl _, fun _ => .refl _⟩, fun unbound => absurd bound unbound⟩
    · next unbound =>
      refine Traces.of_ensures (m := dial env addr) .done ?_
      rw [ensures_dial]
      exact ⟨fun bound => absurd bound unbound, fun _ => .refl _⟩
  | addTargetPeer target | removeTargetPeer target => exact .of_aside ⟨rfl, rfl, rfl, rfl⟩

/-- **The moments of a turn are what is visible of a trace to the state it leaves.** -/
theorem moments_traces (env : Env) (recent : since ≤ s.clockReads) (i : Input) :
    Traces env since s (s.moments env i) (s.step env i) := by
  cases i with
  | event event => exact onSwarmEvent_traces recent event
  | rpc rpc => exact dispatchRpc_traces rpc

/-- The address a moment dials. -/
def Moment.dial : Moment → Option Multiaddr
  | .read p s => s.dialTarget p
  | .request addr => some addr
  | .op _ | .settled _ _ => none

/-- **The dials of a turn are those of its moments**, in order. -/
theorem dialed_of_moments {i : Input} (returned : s.step env i = some s') :
    dialed s'.swarm.calls =
      dialed s.swarm.calls ++ (s.moments env i).flatMap fun m => m.dial.toList := by
  obtain ⟨t, trace, ends⟩ := moments_traces env (Nat.zero_le _) i
  obtain rfl := ends s' returned
  refine trace.collects (f := fun s => dialed s.swarm.calls) ?_ ?_
  · intro u v step
    cases step with
    | aside aside => exact aside.dials
  · intro u x v step
    cases step with
    | op | settled => exact (List.append_nil _).symm
    | request => exact dialed_append _ _
    | @read q _ =>
      show dialed (u.afterRead env q).swarm.calls = _ ++ (u.dialTarget q).toList
      unfold SavedNetwork.afterRead
      cases target : u.dialTarget q with
      | none => exact (List.append_nil _).symm
      | some a =>
        obtain ⟨_, rfl, _⟩ := dialTarget_eq_some.mp target
        simp only
        split <;> exact dialed_append _ _

/-! ## Reads in a trace -/

/-- **A read is made in the state the moments before it lead to**, of a fresh vector, and its dial
comes next. -/
theorem read_reached {before rest : List Moment}
    (trace : Trace (Happens env since) s (before ++ .read p t :: rest) u) :
    Trace (Happens env since) s before t ∧ Fresh env since p t ∧
      Trace (Happens env since) (t.afterRead env p) rest u := by
  obtain ⟨v, until', tail⟩ := trace.split
  obtain ⟨w, x, aside, step, rest⟩ := tail.uncons
  cases step with
  | read fresh =>
    have reached := until'.trans aside
    rw [List.append_nil] at reached
    exact ⟨reached, fresh, rest⟩

/-- **A read of a turn**, with the moments before it. -/
theorem read_of_turn {i : Input} (read : .read p t ∈ s.moments env i) :
    ∃ before, (∀ m ∈ before, m ∈ s.moments env i) ∧
      Trace (Happens env s.clockReads) s before t ∧ Fresh env s.clockReads p t := by
  obtain ⟨before, rest, moments⟩ := List.append_of_mem read
  obtain ⟨u, trace, _⟩ := moments_traces env (Nat.le_refl s.clockReads) i
  obtain ⟨reached, fresh, _⟩ := read_reached (moments ▸ trace)
  exact ⟨before, fun m mem => moments ▸ List.mem_append_left _ mem, reached, fresh⟩

/-- Well-formedness is a matter of the vectors. -/
theorem NetworkView.wellFormed_congr {view view' : NetworkView}
    (same : view'.addressesOf = view.addressesOf) (wf : view.WellFormed) : view'.WellFormed :=
  fun q => same ▸ wf q

/-- A failed dial of any peer is a failure marked. -/
theorem dialFailed_eq (env : Env) (s : SavedNetwork) (p : PeerId) : s.dialFailed env p =
    (s.tell [.dial (s.bestAddr p) false]).after (.markFailure (env.clock s.clockReads 0)
      (env.readings (s.clockReads + 1)) p (s.bestAddr p)) := rfl

section Views

variable {I : NetworkView → Prop} (congr : ∀ v v', v'.addressesOf = v.addressesOf → I v → I v')
  (fails : ∀ v failed now p a, v.isConnectedOver p a = false → I v →
    I (v.apply (.markFailure failed now p a)))

include congr fails

/-- **The invariant rule for the view.** What the address vectors decide is kept by a trace, when
the operations of the trace keep it, and a failure of an address that is not connected does. -/
theorem view_trace (ops : ∀ v op, .op op ∈ l → I v → I (v.apply op))
    (trace : Trace (Happens env since) s l t) (init : I s.view) : I t.view := by
  refine trace.invariant (I := fun t => I t.view) ?_ ?_ init
  · intro u v step inv
    cases step with
    | aside aside => exact congr _ _ aside.addresses inv
  · intro u x v mem step inv
    cases step with
    | op => exact ops _ _ mem inv
    | request | settled => exact inv
    | @read q _ =>
      unfold SavedNetwork.afterRead
      cases dials : u.dialTarget q with
      | none => exact inv
      | some a =>
        obtain ⟨_, best, idle, _⟩ := dialTarget_eq_some.mp dials
        dsimp only
        split
        · exact inv
        · rw [dialFailed_eq, best]
          exact fails _ _ _ _ _ idle inv

/-- **The rule for a run.** -/
theorem view_run {ok : List Input → SavedNetwork → Input → Prop} {me : PeerId} {max : Nat}
    {h : List Input} (empty : I {})
    (ops : ∀ h s i, ok h s i → ∀ v op, .op op ∈ s.moments env i → I v → I (v.apply op))
    (run : Run (SavedNetwork.step env) ok (.start me max) h s) : I s.view := by
  refine run.state_invariant (I := fun s => I s.view) empty ?_
  intro h s s' i inv meets returned
  obtain ⟨t, trace, ends⟩ := moments_traces env (Nat.zero_le _) i
  obtain rfl := ends s' returned
  exact view_trace congr fails (ops h s i meets) trace inv

end Views

/-- What the view keeps of its own accord, every trace keeps. -/
theorem wellFormed_trace (trace : Trace (Happens env since) s l t) (wf : s.view.WellFormed) :
    t.view.WellFormed :=
  view_trace (I := NetworkView.WellFormed) (fun _ _ => NetworkView.wellFormed_congr)
    (fun _ _ _ _ _ _ wf => (NetworkView.apply_registers wf _).1)
    (fun _ _ _ wf => (NetworkView.apply_registers wf _).1) trace wf

/-- Every view of a run is well formed. -/
theorem wellFormed_run {ok : List Input → SavedNetwork → Input → Prop} {me : PeerId} {max : Nat}
    {h : List Input} (run : Run (SavedNetwork.step env) ok (.start me max) h s) :
    s.view.WellFormed :=
  view_run (I := NetworkView.WellFormed) (fun _ _ => NetworkView.wellFormed_congr)
    (fun _ _ _ _ _ _ wf => (NetworkView.apply_registers wf _).1) NetworkView.wellFormed_empty
    (fun _ _ _ _ _ _ _ wf => (NetworkView.apply_registers wf _).1) run

end Saved
