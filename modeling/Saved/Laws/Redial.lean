import Saved.Laws.DeadRelays
import Saved.Laws.TurnTraces

/-!
# A relay that was pruned

`prune_relays` disconnects the relay it gives up. The close of each of its connections reconciles
the relay like any other peer, and once none is left a reconcile dials the best of its addresses.
`closesQuietly` is the condition under which one close dials nothing, read in the state before it,
and `pruned_stays_iff` says that it is exact for a whole sequence of closes. The view may have lost
some of the connections that close, when an mDNS expiry took their address out; the close is handled
all the same. Where every broadcast is heard, what counts is only whether the relay still has a
known address when its last connection is gone (`quietCloses_of_heard`).
-/

namespace Saved

open Saved.Lib SavedNetwork

variable {env : Env} {me : PeerId} {max : Nat} {s s' t u : SavedNetwork} {p : PeerId}
  {c : ConnectionId} {cs : List ConnectionId}

namespace SavedNetwork

/-- The node once a connection is gone from the view. -/
def released (env : Env) (p : PeerId) (c : ConnectionId) (s : SavedNetwork) : SavedNetwork :=
  s.onView env fun now view => view.removeConnection now p c

/-- **A close that dials nothing.** Nobody hears of it; or, once the connection is gone, the peer
has no known address, or keeps a connection on the best one, or keeps another and this node is not
its prune leader. -/
def closesQuietly (env : Env) (p : PeerId) (c : ConnectionId) (s : SavedNetwork) : Bool :=
  !env.sendOk s.asked ||
    ((s.released env p c).view.addressesOf p).head?.all fun best =>
      (s.released env p c).view.isConnectedOver p best.address ||
        (s.released env p c).view.isConnected p && !s.isPruneLeader p

/-- Handle the closes of a peer's connections, in order. -/
def closeAll (env : Env) (p : PeerId) (cs : List ConnectionId) (s : SavedNetwork) :
    Option SavedNetwork :=
  cs.foldlM (fun s c => s.step env (.event (.connectionClosed p c))) s

/-- **Each close is quiet** in the state it finds. -/
def QuietCloses (env : Env) (p : PeerId) : List ConnectionId → SavedNetwork → Prop
  | [], _ => True
  | c :: cs, s => s.closesQuietly env p c = true ∧
    ∀ s', s.step env (.event (.connectionClosed p c)) = some s' → QuietCloses env p cs s'

/-- **The closes start no dial**: they are handled, and the dials made are those made before. -/
def StartsNoDial (env : Env) (p : PeerId) (cs : List ConnectionId) (s : SavedNetwork) : Prop :=
  ∃ s', s.closeAll env p cs = some s' ∧ dialed s'.swarm.calls = dialed s.swarm.calls

end SavedNetwork

/-! ## One close -/

/-- Whether a close is quiet, in terms of what the reconcile after it would dial. -/
theorem closesQuietly_iff : s.closesQuietly env p c = true ↔
    env.sendOk s.asked = false ∨ (s.released env p c).dialTarget p = none := by
  have leads : (s.released env p c).isPruneLeader p = s.isPruneLeader p := rfl
  unfold closesQuietly dialTarget
  rw [leads, Bool.or_eq_true, Bool.not_eq_true']
  cases (s.released env p c).view.addressesOf p with
  | nil => simp
  | cons best rest =>
    simp only [List.head?_cons, Option.all_some, Bool.or_eq_true]
    refine or_congr_right ?_
    split
    · next up => simp [up]
    · next down =>
      split
      · next waits => simp [waits]
      · next goes => simp [down, goes]

/-- An announcement, run: its call, and its answer. -/
theorem broadcast_run (event : SavedNetworkEvent) : broadcast env event s =
    some (if env.sendOk s.asked then .ok () else .error (.tokioBroadcastNetEvent event),
      s.tell [.send event]) := by
  unfold broadcast
  simp only [Proc.bind_apply, Proc.get, Proc.update]
  split <;> rfl

/-- The part before the reconcile, for a peer that is no target. -/
theorem closedPrefix_run (other : p ∉ s.targetPeers) : closedPrefix env p c s = some
    (if env.sendOk s.asked then .ok () else .error (.tokioBroadcastNetEvent (.disconnected p c)),
      (s.released env p c).tell [.send (.disconnected p c)]) := by
  have asked : (s.released env p c).asked = s.asked := rfl
  have stays : ¬ (p ∈ (s.released env p c).targetPeers ∧
      (s.released env p c).view.isConnected p = false) := fun both => other both.1
  show (do
    broadcast env (.disconnected p c)
    let s ← Proc.get
    if p ∈ s.targetPeers ∧ s.view.isConnected p = false then setActiveMode env true
    else pure () : NetM Unit) (s.released env p c) = _
  rw [Proc.bind_apply, broadcast_run, asked]
  cases env.sendOk s.asked with
  | false => rfl
  | true => exact congrFun (if_neg stays) _

/-- **A close**, for a peer that is no target. -/
theorem step_closed (other : p ∉ s.targetPeers) :
    s.step env (.event (.connectionClosed p c)) =
      if env.sendOk s.asked then
        (((s.released env p c).tell [.send (.disconnected p c)]).reconcilePeerConnections env p).map
          SavedNetwork.updateRelayState
      else some ((s.released env p c).tell [.send (.disconnected p c)]) := by
  show (onPeerConnectionClosed env p c).exec s = _
  rw [onPeerConnectionClosed_eq]
  unfold Proc.exec
  rw [Proc.bind_apply, closedPrefix_run other]
  cases env.sendOk s.asked with
  | false => rfl
  | true => exact Proc.exec_attempt_update _ _ _

/-- A reconcile that has something to dial dials it. -/
theorem dialed_of_target {depth : Nat} {a : Multiaddr} (target : s.dialTarget p = some a)
    (returned : s.reconcileFrom env p (depth + 1) = some s') :
    (dialed s.swarm.calls).length < (dialed s'.swarm.calls).length := by
  obtain ⟨closes, _, next⟩ := reconcileFrom_succ env p depth s
  rw [next, target] at returned
  have dials : ∀ ok, dialed (s.tell [.dial a ok]).swarm.calls = dialed s.swarm.calls ++ [a] :=
    fun ok => dialed_append _ _
  have best : s.bestAddr p = a := (dialTarget_eq_some.mp target).2.1
  have failed : dialed (s.dialFailed env p).swarm.calls = dialed s.swarm.calls ++ [a] := by
    rw [← dials false, ← best]
    rfl
  simp only at returned
  split at returned
  · cases returned
    rw [dials, List.length_append]
    exact Nat.lt_succ_self _
  · split at returned
    · cases returned
      rw [failed, List.length_append]
      exact Nat.lt_succ_self _
    -- the dial failed and the call repeats, which takes no dial back
    · obtain ⟨new, calls, _⟩ := (reconcileFrom_reconciled returned).frame.calls
      rw [calls, dialed_append, failed, List.length_append, List.length_append,
        List.length_singleton]
      omega

/-- **One close dials nothing exactly when it is quiet.** -/
theorem closed_iff (deep : 0 < env.depth) (other : p ∉ s.targetPeers) :
    (∃ s', s.step env (.event (.connectionClosed p c)) = some s' ∧
      dialed s'.swarm.calls = dialed s.swarm.calls) ↔ s.closesQuietly env p c = true := by
  -- The reconcile is made after the broadcast, which changes nothing that it reads.
  let t := (s.released env p c).tell [.send (.disconnected p c)]
  have told : dialed t.swarm.calls = dialed s.swarm.calls :=
    (Aside.tell (s := s.released env p c) rfl).dials
  have target : t.dialTarget p = (s.released env p c).dialTarget p := rfl
  obtain ⟨depth, depth_eq⟩ := Nat.exists_eq_add_of_lt deep
  rw [Nat.zero_add] at depth_eq
  rw [closesQuietly_iff, step_closed other, ← target]
  cases env.sendOk s.asked with
  | false => simpa using told
  | true =>
    simp only [if_true, Bool.true_eq_false, false_or, reconcilePeerConnections, depth_eq]
    constructor
    · intro silent
      obtain ⟨s', returned, same⟩ := silent
      obtain ⟨u, reconciled, rfl⟩ := Option.map_eq_some_iff.mp returned
      by_contra dials
      obtain ⟨a, found⟩ := Option.ne_none_iff_exists'.mp dials
      have more := dialed_of_target found reconciled
      have updated := (Aside.updateRelayState u).dials
      rw [← updated, same, ← told] at more
      exact Nat.lt_irrefl _ more
    · intro none
      obtain ⟨closes, silent, next⟩ := reconcileFrom_succ env p depth t
      rw [none] at next
      refine ⟨_, by rw [next]; rfl, ?_⟩
      rw [(Aside.updateRelayState _).dials, (Aside.tell silent).dials, told]

/-! ## All closes -/

/-- Closes of a peer that is no target leave the targets, so the next close finds the same. -/
theorem step_closed_targets (other : p ∉ s.targetPeers)
    (returned : s.step env (.event (.connectionClosed p c)) = some s') :
    s'.targetPeers = s.targetPeers := by
  rw [step_closed other] at returned
  split at returned
  · obtain ⟨u, reconciled, rfl⟩ := Option.map_eq_some_iff.mp returned
    exact (updateRelayState_spec u).targetPeers.trans
      (reconciled_of_returned reconciled).frame.targetPeers
  · cases returned
    rfl

/-- The dials made are kept. -/
theorem closeAll_dialed {s : SavedNetwork} (returned : s.closeAll env p cs = some s') :
    ∃ more, dialed s'.swarm.calls = dialed s.swarm.calls ++ more := by
  induction cs generalizing s with
  | nil =>
    cases returned
    exact ⟨[], (List.append_nil _).symm⟩
  | cons c cs ih =>
    obtain ⟨t, first, rest⟩ := Option.bind_eq_some_iff.mp returned
    obtain ⟨more, later⟩ := ih rest
    exact ⟨_, by rw [later, dialed_of_moments first, List.append_assoc]⟩

/-- **The closes start no dial exactly when each of them is quiet.** -/
theorem startsNoDial_iff (deep : 0 < env.depth) {s : SavedNetwork} (other : p ∉ s.targetPeers) :
    s.StartsNoDial env p cs ↔ s.QuietCloses env p cs := by
  induction cs generalizing s with
  | nil => exact ⟨fun _ => trivial, fun _ => ⟨s, rfl, rfl⟩⟩
  | cons c cs ih =>
    constructor
    · intro silent
      obtain ⟨s', returned, same⟩ := silent
      obtain ⟨t, first, rest⟩ := Option.bind_eq_some_iff.mp returned
      obtain ⟨more, later⟩ := closeAll_dialed rest
      have now := dialed_of_moments first
      have none := same.symm.trans (later.trans (congrArg (· ++ more) now))
      rw [List.append_assoc, List.self_eq_append_right, List.append_eq_nil_iff] at none
      rw [none.1, List.append_nil] at now
      refine ⟨(closed_iff deep other).mp ⟨t, first, now⟩, fun t' first' => ?_⟩
      obtain rfl := Option.some.inj (first.symm.trans first')
      have other' : p ∉ t.targetPeers := step_closed_targets other first ▸ other
      exact (ih other').mp ⟨s', rest, same.trans now.symm⟩
    · intro quiet
      obtain ⟨t, first, now⟩ := (closed_iff deep other).mpr quiet.1
      have other' : p ∉ t.targetPeers := step_closed_targets other first ▸ other
      obtain ⟨s', rest, same⟩ := (ih other').mpr (quiet.2 t first)
      exact ⟨s', Option.bind_eq_some_iff.mpr ⟨t, first, rest⟩, same.trans now⟩

/-! ## Closes that are heard -/

/-- Taking a connection out keeps the view well formed. -/
theorem released_wellFormed (wf : s.view.WellFormed) : (s.released env p c).view.WellFormed :=
  (NetworkView.removeConnection_registers wf).1

/-- After it the connection is not tracked. -/
theorem released_tracked (wf : s.view.WellFormed) :
    (s.released env p c).view.tracked = s.view.tracked.set p c none :=
  NetworkView.tracked_removeConnection wf

/-- A connection that closes leaves the address it stood on in the view. -/
theorem released_addresses_eq_nil (wf : s.view.WellFormed) :
    (s.released env p c).view.addressesOf p = [] ↔ s.view.addressesOf p = [] := by
  have registers : (s.released env p c).view.registers = _ :=
    (NetworkView.removeConnection_registers wf).2
  have slots : ((s.released env p c).view.registers p).slots = (s.view.registers p).slots := by
    rw [registers, Function.update_self]
    rfl
  rw [← register_slots_eq_empty, ← register_slots_eq_empty]
  exact Eq.congr_left slots

/-- A close that is heard and dials nothing changes no more of the view than the connection. -/
theorem view_of_quiet_close (deep : 0 < env.depth) (heard : env.sendOk s.asked = true)
    (other : p ∉ s.targetPeers) (quiet : s.closesQuietly env p c = true)
    (returned : s.step env (.event (.connectionClosed p c)) = some s') :
    s'.view = (s.released env p c).view := by
  obtain ⟨depth, depth_eq⟩ := Nat.exists_eq_add_of_lt deep
  rw [Nat.zero_add] at depth_eq
  let t := (s.released env p c).tell [.send (.disconnected p c)]
  have target : t.dialTarget p = none :=
    (closesQuietly_iff.mp quiet).resolve_left fun lost => Bool.false_ne_true (lost.symm.trans heard)
  obtain ⟨closes, _, next⟩ := reconcileFrom_succ env p depth t
  rw [target] at next
  have reconciled : t.reconcilePeerConnections env p = some (t.tell closes) := by
    rw [reconcilePeerConnections, depth_eq, next]
  rw [step_closed other, if_pos heard, reconciled] at returned
  cases returned
  rw [(updateRelayState_spec _).view]
  rfl

/-- **The close of the last connection is not quiet** when it is heard and the peer has a known
address: with no connection left, a reconcile dials the best of them. -/
theorem last_not_quiet (wf : s.view.WellFormed) (heard : env.sendOk s.asked = true)
    (known : s.view.addressesOf p ≠ [])
    (last : ∀ d, (s.view.tracked p d).isSome = true → d = c) :
    s.closesQuietly env p c = false := by
  have down : (s.released env p c).view.isConnected p = false := by
    rw [← Bool.not_eq_true, NetworkView.isConnected_iff_tracked (released_wellFormed wf),
      released_tracked wf]
    intro up
    obtain ⟨d, a, stands⟩ := up
    rcases Tracked.set_eq_some.mp stands with ⟨_, none⟩ | ⟨ne, old⟩
    · cases none
    · exact ne ⟨rfl, last d (Option.isSome_iff_exists.mpr ⟨a, old⟩)⟩
  have target : (s.released env p c).dialTarget p = some ((s.released env p c).bestAddr p) :=
    dialTarget_eq_some.mpr ⟨mt (released_addresses_eq_nil wf).mp known, rfl,
      isConnectedOver_of_down down _, fun up => absurd (down.symm.trans up) Bool.false_ne_true⟩
  rw [← Bool.not_eq_true, closesQuietly_iff, heard, target]
  intro quiet
  rcases quiet with never | none
  · cases never
  · cases none

/-- A close of a peer without a known address has nothing to dial. -/
theorem quiet_of_unknown (wf : s.view.WellFormed) (unknown : s.view.addressesOf p = []) :
    s.closesQuietly env p c = true := by
  refine closesQuietly_iff.mpr (.inr ?_)
  rw [dialTarget, (released_addresses_eq_nil wf).mpr unknown]

/-- **The closes of every connection of a peer, all heard**, are quiet when there are none, or when
there is no address to dial. The connections closed may be more than those the view tracks. -/
theorem quietCloses_of_heard (deep : 0 < env.depth) (heard : ∀ n, env.sendOk n = true)
    {s : SavedNetwork} (wf : s.view.WellFormed) (other : p ∉ s.targetPeers)
    (all : ∀ d, (s.view.tracked p d).isSome = true → d ∈ cs) :
    s.QuietCloses env p cs ↔ cs = [] ∨ s.view.addressesOf p = [] := by
  induction cs generalizing s with
  | nil => exact ⟨fun _ => .inl rfl, fun _ => trivial⟩
  | cons c cs ih =>
    -- The rest of the closes, after one that was quiet: the addresses are those there were.
    have later : ∀ t, s.closesQuietly env p c = true →
        s.step env (.event (.connectionClosed p c)) = some t →
        (t.QuietCloses env p cs ↔ cs = [] ∨ s.view.addressesOf p = []) := by
      intro t quiet first
      have view := view_of_quiet_close deep (heard _) other quiet first
      have gone : (s.released env p c).view.addressesOf p = [] ↔ s.view.addressesOf p = [] :=
        released_addresses_eq_nil wf
      rw [← gone, ← view]
      refine ih (view ▸ released_wellFormed wf) (step_closed_targets other first ▸ other) ?_
      intro d stands
      rw [view, released_tracked wf] at stands
      obtain ⟨a, here⟩ := Option.isSome_iff_exists.mp stands
      rcases Tracked.set_eq_some.mp here with ⟨_, none⟩ | ⟨ne, old⟩
      · cases none
      · have listed := all d (Option.isSome_iff_exists.mpr ⟨a, old⟩)
        exact (List.mem_cons.mp listed).resolve_left fun same => ne ⟨rfl, same⟩
    constructor
    · intro quiet
      obtain ⟨t, first, _⟩ := (closed_iff deep other).mpr quiet.1
      right
      rcases (later t quiet.1 first).mp (quiet.2 t first) with rfl | unknown
      · by_contra known
        have loud := last_not_quiet wf (heard s.asked) known fun d stands =>
          List.mem_singleton.mp (all d stands)
        exact Bool.false_ne_true (loud.symm.trans quiet.1)
      · exact unknown
    · intro empty
      have unknown := empty.resolve_left (List.cons_ne_nil c cs)
      have quiet : s.closesQuietly env p c = true := quiet_of_unknown wf unknown
      exact ⟨quiet, fun t first => (later t quiet first).mpr (.inr unknown)⟩

/-- **When a pruned relay stays down.** In every reachable state, so also in one where a pruning
has just disconnected the peer: handling the closes of its connections, in any order, starts no dial
exactly when each close is quiet. Where every broadcast is heard and every connection that the swarm
has open is among them, that is when there are none, or no address of the peer is known. -/
theorem pruned_stays_iff (env : Env) (me : PeerId) (max : Nat) {h : List Input} {s : SavedNetwork}
    {p : PeerId} {cs : List ConnectionId} (deep : 0 < env.depth)
    (run : Run (SavedNetwork.step env) (fun _ _ _ => True) (.start me max) h s)
    (other : p ∉ s.targetPeers) :
    (s.StartsNoDial env p cs ↔ s.QuietCloses env p cs) ∧
    ((∀ n, env.sendOk n = true) → (∀ d, (swarmConns h p d).isSome = true → d ∈ cs) →
      (s.StartsNoDial env p cs ↔ cs = [] ∨ s.view.addressesOf p = [])) := by
  have quiet_iff : s.StartsNoDial env p cs ↔ s.QuietCloses env p cs := startsNoDial_iff deep other
  refine ⟨quiet_iff, fun heard all => ?_⟩
  rw [quiet_iff]
  refine quietCloses_of_heard deep heard (wellFormed_run run) other fun d stands => ?_
  exact all d (open_of_tracked run p d stands)

/-- Five relays connect, and the first four accept a reservation. -/
def fiveRelayInputs : List Input :=
  [.event (.connectionEstablished ⟨[1]⟩ ⟨1⟩ (.dialer (lanAddr 1))),
    .event (.connectionEstablished ⟨[2]⟩ ⟨2⟩ (.dialer (lanAddr 2))),
    .event (.connectionEstablished ⟨[3]⟩ ⟨3⟩ (.dialer (lanAddr 3))),
    .event (.connectionEstablished ⟨[4]⟩ ⟨4⟩ (.dialer (lanAddr 4))),
    .event (.connectionEstablished ⟨[5]⟩ ⟨5⟩ (.dialer (lanAddr 5))),
    .event (.reservationReqAccepted ⟨[1]⟩), .event (.reservationReqAccepted ⟨[2]⟩),
    .event (.reservationReqAccepted ⟨[3]⟩), .event (.reservationReqAccepted ⟨[4]⟩)]

/-- The one connection that is open to the fifth relay, the one that is pruned. -/
theorem swarmConns_fiveRelayInputs (d : ConnectionId) :
    (swarmConns (fiveRelayInputs ++ [Input.event (.reservationReqAccepted ⟨[5]⟩)]) ⟨[5]⟩ d).isSome =
      true ↔ d ∈ [(⟨5⟩ : ConnectionId)] := by
  by_cases same : d = ⟨5⟩ <;> simp [swarmConns, fiveRelayInputs, Input.report, same]

/-- The fifth relay accepts one too, and is disconnected. It was connected, so it is dialed
again. -/
theorem pruned_stays_iff_five : ∃ s, Run (SavedNetwork.step .calm) (fun _ _ _ => True)
    (.start ⟨[0]⟩ 4) (fiveRelayInputs ++ [Input.event (.reservationReqAccepted ⟨[5]⟩)]) s ∧
    .disconnectPeerId ⟨[5]⟩ ∈ s.swarm.calls ∧ ¬ s.StartsNoDial .calm ⟨[5]⟩ [⟨5⟩] := by
  obtain ⟨s, run, shape⟩ : ∃ s, Run (SavedNetwork.step .calm) (fun _ _ _ => True)
      (.start ⟨[0]⟩ 4) (fiveRelayInputs ++ [Input.event (.reservationReqAccepted ⟨[5]⟩)]) s ∧
      (decide (.disconnectPeerId ⟨[5]⟩ ∈ s.swarm.calls) && decide (⟨[5]⟩ ∉ s.targetPeers) &&
        !(s.view.addressesOf ⟨[5]⟩).isEmpty) = true :=
    Run.exists_of_replay (by decide)
  simp only [Bool.and_eq_true, decide_eq_true_eq, Bool.not_eq_true', List.isEmpty_eq_false_iff]
    at shape
  obtain ⟨⟨pruned, other⟩, known⟩ := shape
  have stays := (pruned_stays_iff .calm ⟨[0]⟩ 4 (by decide) run other).2 (fun _ => rfl)
    fun d => (swarmConns_fiveRelayInputs d).mp
  refine ⟨s, run, pruned, fun silent => ?_⟩
  rcases stays.mp silent with none | unknown
  · exact List.cons_ne_nil _ _ none
  · exact known unknown

/-- **The fifth relay is pruned, and its close redials it.** -/
theorem pruned_relay_redialed : ¬ ∀ (env : Env) (me : PeerId) (max : Nat) (h : List Input)
    (i : Input) (s s' : SavedNetwork) (new : List Call) (r : PeerId) (cs : List ConnectionId),
    0 < env.depth →
    Run (SavedNetwork.step env) (fun h _ i => i.genuine h = true) (.start me max) h s →
    s.step env i = some s' → s'.swarm.calls = s.swarm.calls ++ new → .disconnectPeerId r ∈ new →
    r ∉ s.targetPeers → cs.Nodup → (∀ d, (swarmConns (h ++ [i]) r d).isSome = true ↔ d ∈ cs) →
    s'.StartsNoDial env r cs := by
  intro always
  obtain ⟨s, run, shape⟩ : ∃ s, Run (SavedNetwork.step .calm)
      (fun h _ i => i.genuine h = true) (.start ⟨[0]⟩ 4) fiveRelayInputs s ∧
      ((s.step .calm (.event (.reservationReqAccepted ⟨[5]⟩))).any fun s' =>
        decide (s'.swarm.calls = s.swarm.calls ++ [Call.disconnectPeerId ⟨[5]⟩]) &&
        decide (⟨[5]⟩ ∉ s.targetPeers) &&
        (s'.closeAll .calm ⟨[5]⟩ [⟨5⟩]).all fun t =>
          decide (dialed t.swarm.calls = dialed s'.swarm.calls ++ [lanAddr 5])) = true :=
    Run.exists_of_replay (by decide)
  obtain ⟨s', returned, shape⟩ := (Option.any_eq_true _ _).mp shape
  simp only [Bool.and_eq_true, Option.all_eq_true, decide_eq_true_eq] at shape
  obtain ⟨⟨calls, other⟩, redials⟩ := shape
  obtain ⟨t, closed, same⟩ := always .calm _ _ _ _ s s' _ ⟨[5]⟩ [⟨5⟩] (by decide) run returned calls
    List.mem_cons_self other (by decide) swarmConns_fiveRelayInputs
  have dials := redials t closed
  rw [same] at dials
  simp at dials

end Saved
