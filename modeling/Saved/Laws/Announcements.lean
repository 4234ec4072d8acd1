import Mathlib.Data.List.Infix
import Saved.Lib.Broadcast
import Saved.Laws.Deeds
import Saved.Process

/-!
# What the node announces

Each event of the swarm that opens or closes a connection, finds peers or names a listen address is
announced to the receivers of the node's events, once, in the order of the events, and nothing else
is (`announced_exactly`). A handler announces before anything in it can fail, so only a Kademlia
answer can announce less than it should, and only when nobody hears: a handle that is there to be
told keeps a receiver.

So a receiver that has missed none of the announcements since it subscribed knows the open
connections of the swarm, whatever has become of them in the view (`watcher_picture`). The channel
between them is tokio's; what is assumed of it is that a receiver without a gap gets the
announcements in order.
-/

namespace Saved

open Saved.Lib SavedNetwork

/-- The event that a call broadcasts. -/
def Call.sent : Call → Option SavedNetworkEvent
  | .send news => some news
  | _ => none

/-- **What a node has announced so far.** -/
def announced (s : SavedNetwork) : List SavedNetworkEvent := s.swarm.calls.filterMap Call.sent

/-- From one state to another, a list of events is announced. -/
def Announces (news : List SavedNetworkEvent) (s t : SavedNetwork) : Prop :=
  announced t = announced s ++ news

variable {env : Env} {s s' t u : SavedNetwork} {i : Input} {p : PeerId} {c : ConnectionId}
  {may : SavedNetwork → Deed → Prop}

namespace Announces

variable {l l' : List SavedNetworkEvent}

/-- A step without a `broadcast` announces nothing. -/
theorem refl (s : SavedNetwork) : Announces [] s s := (List.append_nil _).symm

/-- What is announced comes in the order of the steps. -/
theorem trans (first : Announces l s t) (second : Announces l' t u) : Announces (l ++ l') s u := by
  unfold Announces at *
  rw [second, first, List.append_assoc]

/-- A step that announces nothing may follow. -/
theorem silent (first : Announces l s t) (second : Announces [] t u) : Announces l s u := by
  have both := first.trans second
  rwa [List.append_nil] at both

/-- What may be done is no announcement. -/
theorem of_within (quiet : ∀ s news, ¬ may s (.call (.send news))) (within : Within may s t) :
    Announces [] s t := by
  refine within.invariant (I := Announces [] s) (fun t u idle here => ?_) (fun t op _ here => here)
    (fun t call allowed here => here.silent ?_) (refl s)
  · unfold Announces announced at *
    rwa [idle.calls]
  · have none : call.sent = none := by
      cases call with
      | send news => exact absurd allowed (quiet t news)
      | _ => rfl
    unfold Announces announced
    rw [SavedNetwork.tell, List.filterMap_append, List.filterMap_cons_none none]
    rfl

end Announces

/-! ## The parts of a turn -/

/-- What is done changes no id. -/
theorem Within.localPeerId (within : Within may s t) :
    t.swarm.localPeerId = s.swarm.localPeerId :=
  within.invariant (I := fun t => t.swarm.localPeerId = s.swarm.localPeerId)
    (fun _ _ idle same => idle.localPeerId.trans same) (fun _ _ _ same => same)
    (fun _ _ _ same => same) rfl

/-- What a part announces, in a node of a given id. -/
def Part.announces (me : PeerId) : Part → List SavedNetworkEvent
  | broadcast news => [news]
  | listeningOn address => [.listeningOn (address.withProtocol (.p2p me))]
  | _ => []

/-- From one state of a node to another, a list of events is announced. -/
def Told (me : PeerId) (news : List SavedNetworkEvent) (s t : SavedNetwork) : Prop :=
  s.swarm.localPeerId = me → Announces news s t ∧ t.swarm.localPeerId = me

/-- Deeds that are no announcement tell nothing. -/
theorem told_of_within {me : PeerId} (quiet : ∀ s news, ¬ may s (.call (.send news)))
    (within : Within may s t) : Told me [] s t :=
  fun same => ⟨.of_within quiet within, within.localPeerId.trans same⟩

/-- **A part announces what it should**, whichever way it exits. -/
theorem part_announces {me : PeerId} (part : Part) (s : SavedNetwork) :
    (part.run env).Ensures s fun _ t => Told me (part.announces me) s t := by
  -- The one kind of call that counts; what the other parts may do is none of it.
  have sends : ∀ news, (broadcast env news).Ensures s fun _ t =>
      Announces [news] s t ∧ t.swarm.localPeerId = s.swarm.localPeerId := fun news =>
    ensures_broadcast.mpr ⟨fun _ => ⟨List.filterMap_append, rfl⟩,
      fun _ => ⟨List.filterMap_append, rfl⟩⟩
  cases part with
  | broadcast news =>
    exact (sends news).mono fun _ _ told same => ⟨told.1, told.2.trans same⟩
  | listeningOn a =>
    refine ensures_listeningOn ((sends _).mono ?_)
    rintro _ t told rfl
    exact told
  | onAddAddress p a =>
    refine Proc.ensures_attempt.mpr fun t returned => ?_
    have added : Within (mayAdd env (p, a)) s t := onAddAddress_within returned
    exact told_of_within (fun _ _ => id) added
  | onRemoveAddress p a =>
    refine Proc.ensures_attempt.mpr fun t returned => ?_
    have removed : Within (mayRemove env (p, a)) s t := onRemoveAddress_within returned
    exact told_of_within (fun _ _ => id) removed
  | reconcile p =>
    exact Proc.ensures_attempt.mpr fun t returned =>
      told_of_within (fun _ _ => id) (reconcile_within returned)
  | switchOpened p | switchClosed p =>
    refine ensures_switches rfl (fun same => ⟨.refl s, same⟩) fun active => ?_
    exact setActiveMode_within.mono fun _ _ within => told_of_within (fun _ _ => id) within
  | updateRelayState =>
    exact Proc.ensures_update.mpr (told_of_within (fun _ _ => id) (updateRelayState_within s))
  | requestReservation p =>
    exact Proc.ensures_update.mpr (told_of_within (fun _ _ => id) (requestReservation_within s))
  | onPing p c result =>
    have stored : Within ((Input.event (.ping p c result)).allows env) s (s.onPing p c result) :=
      onPing_within rfl
    have none : ∀ s news, ¬ (Input.event (.ping p c result)).allows env s (.call (.send news)) :=
      fun _ _ => List.not_mem_nil
    exact Proc.ensures_update.mpr (told_of_within none stored)
  | addConnection | removeConnection | setProtocols | register | natStatus =>
    exact Proc.ensures_update.mpr fun same => ⟨.refl s, same⟩

/-- The parts of a handler announce, one after another, what its event does. -/
theorem flatMap_announces (me : PeerId) (event : SwarmEvent) :
    event.parts.flatMap (Part.announces me) = (Input.event event).announces me := by
  have learned : ∀ (p : PeerId) (addrs : List Multiaddr),
      (addrs.map fun addr => Part.onAddAddress p addr).flatMap (Part.announces me) = [] :=
    fun p addrs => (flatMap_learned _ p addrs).trans (List.flatMap_eq_nil_iff.mpr fun _ _ => rfl)
  cases event with
  | mdnsDiscovered list =>
    rw [SwarmEvent.parts, List.flatMap_map]
    exact List.flatMap_eq_nil_iff.mpr fun _ _ => rfl
  | mdnsExpired list =>
    rw [SwarmEvent.parts, List.flatMap_map]
    exact List.flatMap_eq_nil_iff.mpr fun _ _ => rfl
  | connectionEstablished p c endpoint =>
    rw [SwarmEvent.parts, List.flatMap_append]
    cases relayUsed endpoint <;> rfl
  | kadGetClosestPeers result =>
    cases result with
    | none => rfl
    | some peers =>
      rw [SwarmEvent.parts, List.flatMap_assoc]
      simp only [List.flatMap_cons, learned, List.append_nil]
      exact List.map_eq_flatMap.symm
  | identifyReceived p protocols listenAddrs =>
    rw [SwarmEvent.parts, List.flatMap_append, List.flatMap_cons, learned]
    rfl
  | _ => rfl

/-- **An event announces what it should**, whichever way its handler exits. -/
theorem onSwarmEvent_announces (heard : ∀ n, env.sendOk n = true) (event : SwarmEvent) :
    (onSwarmEvent env event).Ensures s fun _ t =>
      Announces ((Input.event event).announces s.swarm.localPeerId) s t := by
  rw [← flatMap_announces]
  have told : (onSwarmEvent env event).Ensures s fun _ t => Told s.swarm.localPeerId
      (event.parts.flatMap (Part.announces s.swarm.localPeerId)) s t := by
    refine onSwarmEvent_collects heard (fun s same => ⟨.refl s, same⟩) ?_ (fun part closes => ?_)
      part_announces event
    · intro news news' s t u first later same
      obtain ⟨told, same⟩ := first same
      obtain ⟨told', same⟩ := later same
      exact ⟨told.trans told', same⟩
    · cases part with
      | reconcile | updateRelayState | register => rfl
      | _ => cases closes
  exact told.mono fun _ _ told => (told rfl).1

/-- **A turn announces its input.** -/
theorem step_announces (heard : ∀ n, env.sendOk n = true) (returned : s.step env i = some s') :
    Announces (i.announces s.swarm.localPeerId) s s' := by
  cases i with
  | event event => exact (onSwarmEvent_announces heard event).of_exec returned
  | rpc rpc =>
    refine .of_within (fun _ _ => ?_) (dispatchRpc_within returned)
    exact List.not_mem_nil

/-! ## Runs -/

variable {me : PeerId} {max : Nat} {h : List Input}
  {ok : List Input → SavedNetwork → Input → Prop}

/-- No run changes who the node is, so what an input announces is fixed by the history alone. -/
theorem localPeerId_run {s₀ : SavedNetwork} (run : Run (SavedNetwork.step env) ok s₀ h s) :
    s.swarm.localPeerId = s₀.swarm.localPeerId :=
  run.state_invariant (I := fun s => s.swarm.localPeerId = s₀.swarm.localPeerId) rfl
    fun _ _ _ _ same _ returned => (step_within returned).localPeerId.trans same

/-- What is announced from one state to a later one. -/
theorem announces_run (heard : ∀ n, env.sendOk n = true) {s₀ : SavedNetwork}
    (run : Run (SavedNetwork.step env) ok s₀ h s) :
    Announces (h.flatMap (Input.announces s₀.swarm.localPeerId)) s₀ s := by
  induction run with
  | start => exact .refl s₀
  | next before _ returned ih =>
    have told := ih.trans (step_announces heard returned)
    rw [localPeerId_run before] at told
    rw [List.flatMap_append, List.flatMap_singleton]
    exact told

/-- **The node announces exactly what happens to it.** In every run in which the broadcasts are
heard, it has announced each connection opened and closed, each peer a search found and each address
it listens on, with its own id behind, in the order of the events, and nothing else. -/
theorem announced_exactly (env : Env) (me : PeerId) (max : Nat) (heard : ∀ n, env.sendOk n = true)
    {ok : List Input → SavedNetwork → Input → Prop} {h : List Input} {s : SavedNetwork}
    (run : Run (SavedNetwork.step env) ok (.start me max) h s) :
    announced s = h.flatMap (Input.announces me) := announces_run heard run

/-- A peer is found, connects and leaves. -/
def visit : List Input :=
  [.event (.mdnsDiscovered [(⟨[1]⟩, lanAddr 1)]),
    .event (.connectionEstablished ⟨[1]⟩ ⟨0⟩ (.dialer (lanAddr 1))),
    .event (.connectionClosed ⟨[1]⟩ ⟨0⟩)]

/-- One visit of a peer: it is announced when its connection opens and when it closes. -/
theorem announced_visit : ∃ s, Run (SavedNetwork.step .calm) (fun _ _ _ => True)
    (.start ⟨[0]⟩ 4) visit s ∧
    announced s = [.connected ⟨[1]⟩ ⟨0⟩, .disconnected ⟨[1]⟩ ⟨0⟩] := by
  obtain ⟨s, run, _⟩ : ∃ s, Run (SavedNetwork.step .calm) (fun _ _ _ => True) (.start ⟨[0]⟩ 4)
      visit s ∧ (!s.view.isConnected ⟨[1]⟩) = true := Run.exists_of_replay (by decide)
  exact ⟨s, run, announced_exactly .calm ⟨[0]⟩ 4 (fun _ => rfl) run⟩

/-! ## Receivers -/

/-- One act of a node with a receiver of its events. -/
abbrev watchStep (env : Env) : Watcher SavedNetwork SavedNetworkEvent →
    WatchAct Input SavedNetworkEvent → Option (Watcher SavedNetwork SavedNetworkEvent) :=
  Watcher.step (SavedNetwork.step env)

/-- What the node handled since a receiver subscribed. -/
abbrev handled (acts : List (WatchAct Input SavedNetworkEvent)) : List Input :=
  acts.filterMap WatchAct.input

/-- **What a node has announced since** it was in a state. -/
def announcedSince (s t : SavedNetwork) : List SavedNetworkEvent :=
  (announced t).drop (announced s).length

/-- The suffix of the calls that a turn appends is the turn's own news. -/
theorem announcedSince_eq {news : List SavedNetworkEvent} (told : Announces news s t) :
    announcedSince s t = news := by
  unfold announcedSince
  rw [told, List.drop_left]

/-- A turn announces behind what was announced. -/
theorem announcedSince_grows (heard : ∀ n, env.sendOk n = true) (s t : SavedNetwork) (i : Input)
    (t' : SavedNetwork) (returned : t.step env i = some t') :
    announcedSince s t <+: announcedSince s t' := by
  have grown : announced t <+: announced t' := by
    rw [step_announces heard returned]
    exact List.prefix_append _ _
  exact grown.drop _

/-- What a node has announced since a receiver subscribed is what the inputs since then
announce. -/
theorem announcedSince_handled (heard : ∀ n, env.sendOk n = true)
    (run : Run (SavedNetwork.step env) ok (.start me max) h s)
    {ok' : List (WatchAct Input SavedNetworkEvent) → Watcher SavedNetwork SavedNetworkEvent →
      WatchAct Input SavedNetworkEvent → Prop} {acts : List (WatchAct Input SavedNetworkEvent)}
    {w : Watcher SavedNetwork SavedNetworkEvent}
    (watched : Run (watchStep env) ok' (.subscribed s) acts w) :
    announcedSince s w.state = (handled acts).flatMap (Input.announces me) := by
  have node : Run (SavedNetwork.step env) (fun _ _ _ => True) s (handled acts) w.state :=
    Watcher.run_of_run watched
  have told := announces_run heard node
  rw [localPeerId_run run] at told
  exact announcedSince_eq told

/-! ## The connections, as a receiver knows them -/

/-- The connections that a receiver takes to be open. -/
abbrev Picture := PeerId → ConnectionId → Bool

/-- The picture of the swarm's open connections. -/
def Conns.shown (conns : Conns) : Picture := fun p c => (conns p c).isSome

/-- What an announcement changes. -/
def SavedNetworkEvent.draw (picture : Picture) : SavedNetworkEvent → Picture
  | connected p c => fun q d => if q = p ∧ d = c then true else picture q d
  | disconnected p c => fun q d => if q = p ∧ d = c then false else picture q d
  | kadFoundPeer _ _ | listeningOn _ => picture

/-- **What a receiver makes of the announcements**, from what it knew. -/
def SavedNetworkEvent.drawn (known : Picture) (news : List SavedNetworkEvent) : Picture :=
  news.foldl draw known

/-- A Kademlia answer changes no picture. -/
theorem drawn_found {known : Picture} {peers : List (PeerId × List Multiaddr)} :
    SavedNetworkEvent.drawn known (peers.map fun peer => .kadFoundPeer peer.1 peer.2) = known := by
  unfold SavedNetworkEvent.drawn
  induction peers with
  | nil => rfl
  | cons peer peers ih => exact ih

/-- **The announcements of an input say what its report does.** -/
theorem drawn_announces {me : PeerId} (i : Input) (conns : Conns) :
    SavedNetworkEvent.drawn conns.shown (i.announces me) = (i.report conns).shown := by
  cases i with
  | rpc rpc => rfl
  | event event =>
    cases event with
    | connectionEstablished p c endpoint =>
      funext q d
      show (if q = p ∧ d = c then true else (conns q d).isSome) =
        (if q = p ∧ d = c then some endpoint else conns q d).isSome
      split <;> rfl
    | connectionClosed p c =>
      funext q d
      show (if q = p ∧ d = c then false else (conns q d).isSome) =
        (if q = p ∧ d = c then none else conns q d).isSome
      split <;> rfl
    | kadGetClosestPeers result =>
      cases result with
      | none => rfl
      | some peers => exact drawn_found
    | _ => rfl

/-- An announcement that is not the last of its input changes no picture. -/
theorem drawn_part {me : PeerId} {i : Input} {known : Picture} {k : Nat}
    (part : k < (i.announces me).length) :
    SavedNetworkEvent.drawn known ((i.announces me).take k) = known := by
  cases i with
  | rpc rpc => cases part
  | event event =>
    cases event with
    | newListenAddr | connectionEstablished | connectionClosed =>
      obtain rfl := Nat.lt_one_iff.mp part
      rfl
    | kadGetClosestPeers result =>
      cases result with
      | none => cases part
      | some peers =>
        show SavedNetworkEvent.drawn known ((peers.map _).take k) = known
        rw [← List.map_take]
        exact drawn_found
    | _ => cases part

/-- **The first announcements of a list of inputs** say what some first inputs of it report. -/
theorem drawn_take (me : PeerId) (h : List Input) (conns : Conns) (k : Nat) :
    ∃ past, past <+: h ∧
      SavedNetworkEvent.drawn conns.shown ((h.flatMap (Input.announces me)).take k) =
        (past.foldl (fun conns i => i.report conns) conns).shown ∧
      ((h.flatMap (Input.announces me)).length ≤ k → past = h) := by
  -- By induction on the history: the news taken end within the first input's, or go on after them.
  induction h generalizing conns k with
  | nil =>
    refine ⟨[], List.prefix_refl _, ?_, fun _ => rfl⟩
    rw [List.flatMap_nil, List.take_nil]
    rfl
  | cons i h ih =>
    rw [List.flatMap_cons, List.take_append]
    by_cases part : k < (i.announces me).length
    · refine ⟨[], List.nil_prefix, ?_, fun all => ?_⟩
      · rw [Nat.sub_eq_zero_of_le (Nat.le_of_lt part), List.take_zero, List.append_nil]
        exact drawn_part part
      · rw [List.length_append] at all
        omega
    · have whole := Nat.le_of_not_lt part
      obtain ⟨past, first, drawn, all⟩ := ih (i.report conns) (k - (i.announces me).length)
      refine ⟨i :: past, List.prefix_cons_inj i |>.mpr first, ?_, fun read => ?_⟩
      · rw [List.take_of_length_le whole]
        calc SavedNetworkEvent.drawn conns.shown (i.announces me ++ _)
            = SavedNetworkEvent.drawn (SavedNetworkEvent.drawn conns.shown (i.announces me)) _ :=
              List.foldl_append
          _ = SavedNetworkEvent.drawn (i.report conns).shown _ := by rw [drawn_announces]
          _ = _ := drawn
      · rw [List.length_append] at read
        rw [all (by omega)]

/-- **A receiver that has missed nothing knows the open connections.** What it makes of what it got,
from the connections open when it subscribed, are the connections open when the node had handled
some first of the events since, and all of them when it has got all that was announced. -/
theorem watcher_picture (env : Env) (me : PeerId) (max : Nat) (heard : ∀ n, env.sendOk n = true)
    {tokio : Delivery SavedNetworkEvent} (inOrder : tokio.InOrder)
    {ok : List Input → SavedNetwork → Input → Prop} {h : List Input} {s : SavedNetwork}
    (run : Run (SavedNetwork.step env) ok (.start me max) h s)
    {acts : List (WatchAct Input SavedNetworkEvent)} {w : Watcher SavedNetwork SavedNetworkEvent}
    (watched : Run (watchStep env) (fun _ => Watcher.Gets tokio (announcedSince s)) (.subscribed s)
      acts w) (complete : ¬ Gap w.seen) :
    ∃ past, past <+: handled acts ∧
      SavedNetworkEvent.drawn (swarmConns h).shown (w.seen.filterMap Received.value) =
        (swarmConns (h ++ past)).shown ∧
      (w.seen.length = (announcedSince s w.state).length → past = handled acts) := by
  obtain ⟨_, got⟩ := Watcher.got inOrder (announcedSince_grows heard s) watched complete
  rw [announcedSince_handled heard run watched] at got ⊢
  obtain ⟨past, first, drawn, all⟩ := drawn_take me (handled acts) (swarmConns h) w.seen.length
  refine ⟨past, first, ?_, fun read => all read.ge⟩
  rw [got, drawn]
  unfold swarmConns
  rw [List.foldl_append]

/-- A receiver subscribes, hears that a peer connects, and does not hear yet that it leaves. -/
def heardVisit : List (WatchAct Input SavedNetworkEvent) :=
  [.turn (.event (.connectionEstablished ⟨[1]⟩ ⟨0⟩ (.dialer (lanAddr 1)))),
    .recv (.ok (.connected ⟨[1]⟩ ⟨0⟩)), .turn (.event (.connectionClosed ⟨[1]⟩ ⟨0⟩))]

/-- The visit again, from a receiver that lagged behind by one announcement. -/
theorem watcher_picture_visit : ∃ past, past <+: handled heardVisit ∧
    SavedNetworkEvent.drawn (Conns.shown fun _ _ => none) [.connected ⟨[1]⟩ ⟨0⟩] =
      (swarmConns past).shown := by
  obtain ⟨w, watched, seen⟩ : ∃ w, Run (watchStep .calm)
      (fun _ => Watcher.Gets
        (fun sent seen got => Delivery.ring channelCapacity sent seen got = true)
        (announcedSince (.start ⟨[0]⟩ 4))) (.subscribed (.start ⟨[0]⟩ 4)) heardVisit w ∧
      decide (w.seen = [.ok (.connected ⟨[1]⟩ ⟨0⟩)]) = true := Run.exists_of_replay (by decide)
  have seen := of_decide_eq_true seen
  have fresh : Run (SavedNetwork.step .calm) (fun _ _ _ => True) (.start ⟨[0]⟩ 4) [] _ := .start
  obtain ⟨past, first, drawn, _⟩ := watcher_picture .calm ⟨[0]⟩ 4 (fun _ => rfl)
    (inOrder_ring channelCapacity) fresh watched (by simp [Gap, seen])
  rw [seen] at drawn
  exact ⟨past, first, drawn⟩

end Saved
