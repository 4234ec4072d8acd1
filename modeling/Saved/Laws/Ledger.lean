import Saved.Laws.Destination
import Saved.Laws.Edits

/-!
# The view is a ledger of reports

What the view knows, backoffs and the order of addresses aside, is what was reported to the node:
each input reports some facts about peers (`Input.reports`), and a `Ledger` records them one by one.
It has an account for each peer, with the addresses and connections, the protocols and the
round-trip time reported; and it closes an account, with everything in it, when an address expires
or a connection closes and no address is left.

`view_of_reports` says that in every run the view and the ledger of its inputs agree. So the clock,
the answers of dials, the modes, the targets and the requests of handles are no part of what a node
knows, and nodes that hear the same reports know the same.
-/

namespace Saved

open Saved.Lib SavedNetwork

/-! ## Accounts -/

/-- **What was reported of a peer.** -/
structure Account where
  register : Register Multiaddr ConnectionId
  protocols : HashSet StreamProtocol
  supportsRelayHopV2 : Bool
  rtt : Duration

/-- An account that nothing is recorded in. -/
def Account.blank : Account := ⟨.empty, .empty, false, .zero⟩

/-- An account as it is left when something was taken out: closed when no address is left. -/
noncomputable def Account.left (account : Account) : Option Account :=
  open Classical in if account.register.slots = ∅ then none else some account

/-- An account for each peer that is known. -/
abbrev Ledger := PeerId → Option Account

/-- A fact that is reported of a peer. -/
inductive Report where
  | learned (peer : PeerId) (addr : Multiaddr)
  | expired (peer : PeerId) (addr : Multiaddr)
  | established (peer : PeerId) (connId : ConnectionId) (remote : Multiaddr)
  | closed (peer : PeerId) (connId : ConnectionId)
  | speaks (peer : PeerId) (protocols : List StreamProtocol)
  | answered (peer : PeerId) (connId : ConnectionId) (rtt : Duration)
  deriving DecidableEq

namespace Ledger

/-- The account of a peer, opened when there is none. -/
def account (ledger : Ledger) (p : PeerId) : Account := (ledger p).getD .blank

/-- **A report is recorded.** -/
noncomputable def record (ledger : Ledger) : Report → Ledger
  | .learned p a => Function.update ledger p (some
      { ledger.account p with register := (ledger.account p).register.insert a })
  | .expired p a => Function.update ledger p ((ledger p).bind fun account =>
      Account.left { account with register := account.register.erase a })
  | .established p c a => Function.update ledger p (some
      { ledger.account p with register := (ledger.account p).register.assign c a })
  | .closed p c => Function.update ledger p ((ledger p).bind fun account =>
      Account.left { account with register := account.register.release c })
  | .speaks p protocols => Function.update ledger p (some
      { ledger.account p with
        protocols := .ofList protocols
        supportsRelayHopV2 := (HashSet.ofList protocols).toList.any NetworkView.isHopV2 })
  -- A round-trip time counts only when it was measured on a connection that is known.
  | .answered p c rtt => Function.update ledger p ((ledger p).map fun account =>
      if (account.register.slotOf c).isSome then { account with rtt := rtt } else account)

/-- The ledger of a list of reports, on top of another. -/
noncomputable def recordAll (ledger : Ledger) (reports : List Report) : Ledger :=
  reports.foldl record ledger

/-- **The ledger of a list of reports.** -/
noncomputable def of (reports : List Report) : Ledger := recordAll (fun _ => none) reports

/-- Reports are recorded one after the other. -/
theorem recordAll_append (ledger : Ledger) (first rest : List Report) :
    ledger.recordAll (first ++ rest) = (ledger.recordAll first).recordAll rest :=
  List.foldl_append

end Ledger

/-- The account that a peer's entry keeps. -/
def PeerInfoExt.account (info : PeerInfoExt) : Account :=
  ⟨Saved.register info.addresses, info.protocols, info.supportsRelayHopV2, info.rtt⟩

/-- **The ledger that a view keeps.** -/
def NetworkView.ledger (view : NetworkView) : Ledger :=
  fun p => (view.peers.get p).map PeerInfoExt.account

variable {view view' : NetworkView} {now : Readings} {failed : Instant} {p : PeerId} {a : Multiaddr}
  {c : ConnectionId} {info : PeerInfoExt}

/-! ## The operations of the view -/

/-- The register of a peer without an entry, which is also that of an entry without addresses. -/
theorem register_nil : Saved.register [] = Register.empty :=
  congrFun NetworkView.registers_empty ⟨[]⟩

namespace NetworkView

/-- The account of a peer of the view. -/
theorem account_ledger (view : NetworkView) (p : PeerId) :
    view.ledger.account p = ((view.peers.get p).getD {}).account := by
  unfold Ledger.account ledger
  cases view.peers.get p with
  | none => exact congrArg (Account.mk · HashSet.empty false .zero) register_nil.symm
  | some info => rfl

/-- An operation through `entry(p).or_default()`. -/
theorem ledger_entryOrDefault (view : NetworkView) (f : PeerInfoExt → PeerInfoExt) :
    ledger ⟨view.peers.entryOrDefault p {} f⟩ =
      Function.update view.ledger p (some (f ((view.peers.get p).getD {})).account) := by
  funext q
  by_cases h : q = p
  · subst h
    rw [Function.update_self, ledger, HashMap.get_entryOrDefault_self]
    rfl
  · rw [Function.update_of_ne h, ledger, HashMap.get_entryOrDefault_ne _ h]
    rfl

/-- An operation through `get_mut(p)`. -/
theorem ledger_modify (view : NetworkView) (f : PeerInfoExt → PeerInfoExt) :
    ledger ⟨view.peers.modify p f⟩ =
      Function.update view.ledger p ((view.peers.get p).map fun info => (f info).account) := by
  funext q
  by_cases h : q = p
  · subst h
    rw [Function.update_self, ledger, HashMap.get_modify_self, Option.map_map]
    rfl
  · rw [Function.update_of_ne h, ledger, HashMap.get_modify_ne _ h]
    rfl

/-- Pruning closes an account that has no address left. -/
theorem ledger_pruneEmpty (view : NetworkView) : (view.pruneEmpty p).ledger =
    Function.update view.ledger p ((view.ledger p).bind Account.left) := by
  have vacant : ∀ info : PeerInfoExt,
      info.account.register.slots = ∅ ↔ info.addresses = [] := fun _ => register_slots_eq_empty
  funext q
  by_cases h : q = p
  · subst h
    rw [Function.update_self]
    unfold pruneEmpty
    cases known : view.peers.get q with
    | none => simp [ledger, known]
    | some info =>
      have here : view.ledger q = some info.account := by rw [ledger, known]; rfl
      rw [here]
      show _ = info.account.left
      unfold Account.left
      by_cases none : info.addresses = []
      · rw [if_pos ((vacant info).mpr none)]
        simp [none, ledger]
      · rw [if_neg fun empty => none ((vacant info).mp empty)]
        simp [none, here]
  · rw [Function.update_of_ne h, ledger, pruneEmpty_get_ne h]
    rfl

/-- An operation through `get_mut(p)`, followed by `prune_empty`. -/
theorem ledger_modify_prune (view : NetworkView) (f : PeerInfoExt → PeerInfoExt)
    (op : view' = match view.peers.get p with
      | some _ => pruneEmpty ⟨view.peers.modify p f⟩ p
      | none => view) :
    view'.ledger = Function.update view.ledger p
      ((view.peers.get p).bind fun info => (f info).account.left) := by
  subst op
  cases known : view.peers.get p with
  | none =>
    have here : view.ledger p = none := by rw [ledger, known]; rfl
    exact (Function.update_eq_self_iff.mpr here.symm).symm
  | some info =>
    show (pruneEmpty _ p).ledger = _
    rw [ledger_pruneEmpty, ledger_modify, known, Function.update_self, Function.update_idem]
    rfl

end NetworkView

/-! ## The operations of an entry -/

namespace PeerInfoExt

/-- What an entry keeps besides its addresses. -/
def profile (info : PeerInfoExt) : HashSet StreamProtocol × Bool × Duration :=
  (info.protocols, info.supportsRelayHopV2, info.rtt)

/-- An operation on the addresses of an entry. -/
theorem account_of {info' : PeerInfoExt} {r : Register Multiaddr ConnectionId}
    (acted : Saved.register info'.addresses = r) (rest : info'.profile = info.profile) :
    info'.account = { info.account with register := r } := by
  cases info
  cases info'
  cases rest
  exact congrArg (Account.mk · _ _ _) acted

/-- The entry's side of a learned address. -/
theorem addAddress_account (now : Readings) (wf : Wf info.addresses) :
    (info.addAddress now a).2.account =
      { info.account with register := info.account.register.insert a } := by
  refine account_of (addAddress_register now wf).2 ?_
  unfold addAddress
  split <;> rfl

/-- The entry's side of an expired address. -/
theorem removeAddress_account (now : Readings) (wf : Wf info.addresses) :
    (info.removeAddress now a).account =
      { info.account with register := info.account.register.erase a } :=
  account_of (removeAddress_register now wf).2 rfl

/-- What identify and ping told stands beside the vector and stays. -/
theorem placeConnection_profile :
    (info.placeConnection now c a).profile = info.profile := by
  unfold placeConnection ensureAddress
  split <;> rfl

/-- The entry's side of an established connection. -/
theorem addConnection_account (now : Readings) (wf : Wf info.addresses) :
    (info.addConnection now c a).account =
      { info.account with register := info.account.register.assign c a } := by
  refine account_of (addConnection_register now wf).2 ?_
  unfold addConnection
  split
  · split
    · exact placeConnection_profile
    · rfl
  · exact placeConnection_profile

/-- The entry's side of a closed connection. -/
theorem removeConnection_account (now : Readings) (wf : Wf info.addresses) :
    (info.removeConnection now c).account =
      { info.account with register := info.account.register.release c } :=
  account_of (removeConnection_register now wf).2 rfl

/-- Failures are not in the account. That is why the ledger can be drawn from the inputs alone,
which do not say when a dial fails at once. -/
theorem markFailure_account (wf : Wf info.addresses) :
    (info.markFailure failed now a).account = info.account := by
  have same := register_of_records wf (markFailure_records info failed now a)
  refine account_of same ?_
  unfold markFailure
  split <;> rfl

end PeerInfoExt

/-! ## The operations of the view -/

namespace NetworkView

/-- The entry of a known peer is well formed. -/
theorem WellFormed.entry (wf : view.WellFormed) (known : view.peers.get p = some info) :
    Wf info.addresses := addressesOf_of_get known ▸ wf p

/-- The view's side of a learned address, with the entry that it may create. -/
theorem ledger_addAddress (wf : view.WellFormed) :
    (view.addAddress now p a).2.ledger = view.ledger.record (.learned p a) := by
  show ledger ⟨view.peers.entryOrDefault p {} _⟩ = _
  rw [ledger_entryOrDefault, PeerInfoExt.addAddress_account now (wf p), Ledger.record,
    account_ledger]

/-- The view's side of an established connection, with the entry that it may create. -/
theorem ledger_addConnection {endpoint : ConnectedPoint} (wf : view.WellFormed) :
    (view.addConnection now p c endpoint).ledger =
      view.ledger.record (.established p c endpoint.remote) := by
  show ledger ⟨view.peers.entryOrDefault p {} _⟩ = _
  rw [ledger_entryOrDefault, PeerInfoExt.addConnection_account now (wf p), Ledger.record,
    account_ledger]

/-- An identify answer creates the entry of a peer that is not known. -/
theorem ledger_setProtocols {protocols : List StreamProtocol} :
    (view.setProtocols p protocols).ledger = view.ledger.record (.speaks p protocols) := by
  show ledger ⟨view.peers.entryOrDefault p {} _⟩ = _
  rw [ledger_entryOrDefault, Ledger.record, account_ledger]
  rfl

/-- The view's side of an expired address. The entry goes with its last address, and so does the
account. -/
theorem ledger_removeAddress (wf : view.WellFormed) :
    (view.removeAddress now p a).ledger = view.ledger.record (.expired p a) := by
  refine (ledger_modify_prune view (fun info => info.removeAddress now a) rfl).trans ?_
  rw [Ledger.record, ledger]
  congr 1
  cases known : view.peers.get p with
  | none => rfl
  | some info =>
    show (info.removeAddress now a).account.left = _
    rw [PeerInfoExt.removeAddress_account now (wf.entry known)]
    rfl

/-- The view's side of a closed connection. -/
theorem ledger_removeConnection (wf : view.WellFormed) :
    (view.removeConnection now p c).ledger = view.ledger.record (.closed p c) := by
  refine (ledger_modify_prune view (fun info => info.removeConnection now c) rfl).trans ?_
  rw [Ledger.record, ledger]
  congr 1
  cases known : view.peers.get p with
  | none => rfl
  | some info =>
    show (info.removeConnection now c).account.left = _
    rw [PeerInfoExt.removeConnection_account now (wf.entry known)]
    rfl

/-- A failure reorders addresses, and the ledger has no order. -/
theorem ledger_markFailure (wf : view.WellFormed) :
    (view.markFailure failed now p a).ledger = view.ledger := by
  show ledger ⟨view.peers.modify p _⟩ = _
  rw [ledger_modify]
  refine Function.update_eq_self_iff.mpr ?_
  unfold ledger
  cases known : view.peers.get p with
  | none => rfl
  | some info => exact congrArg some (PeerInfoExt.markFailure_account (wf.entry known))

/-- A ping's round-trip time, over a connection that is known. -/
theorem ledger_setRtt {rtt : Duration} (known : (view.getConnectionAddress p c).isSome = true) :
    (view.setRtt p rtt).ledger = view.ledger.record (.answered p c rtt) := by
  show ledger ⟨view.peers.modify p _⟩ = _
  rw [ledger_modify, Ledger.record, ledger]
  unfold getConnectionAddress at known
  cases entry : view.peers.get p with
  | none => rfl
  | some info =>
    rw [entry] at known
    have here : (info.account.register.slotOf c).isSome = true := known
    congr 1
    exact congrArg some (if_pos here).symm

/-- One over another connection is not recorded. -/
theorem ledger_unknown {rtt : Duration}
    (unknown : ¬ (view.getConnectionAddress p c).isSome = true) :
    view.ledger.record (.answered p c rtt) = view.ledger := by
  refine Function.update_eq_self_iff.mpr ?_
  unfold ledger
  unfold getConnectionAddress at unknown
  cases entry : view.peers.get p with
  | none => rfl
  | some info =>
    rw [entry] at unknown
    exact congrArg some (if_neg unknown)

end NetworkView

/-! ## Turns -/

/-- The addresses offered that are not skipped are learned. -/
def learns (list : List (PeerId × Multiaddr)) : List Report :=
  (list.filter fun entry => !shouldSkipForDial entry.2).map fun entry => .learned entry.1 entry.2

/-- Offers are learned one list after the other. -/
theorem learns_append (first rest : List (PeerId × Multiaddr)) :
    learns (first ++ rest) = learns first ++ learns rest := by
  rw [learns, List.filter_append, List.map_append]
  rfl

/-- They are learned one by one. -/
theorem flatMap_learns (list : List (PeerId × Multiaddr)) :
    (list.flatMap fun entry => learns [entry]) = learns list := by
  induction list with
  | nil => rfl
  | cons entry list ih =>
    rw [List.flatMap_cons, ih, ← learns_append]
    rfl

/-- **What an input reports.** -/
def Input.reports : Input → List Report
  | .event (.mdnsExpired list) => list.map fun entry => .expired entry.1 entry.2
  | .event (.connectionEstablished p c endpoint) => [.established p c endpoint.remote]
  | .event (.connectionClosed p c) => [.closed p c]
  | .event (.identifyReceived p protocols listenAddrs) =>
    .speaks p protocols :: learns (listenAddrs.map fun addr => (p, addr))
  | .event (.ping p c (some rtt)) => [.answered p c rtt]
  | i => learns i.offers

variable {env : Env} {s s' t u : SavedNetwork} {i : Input}

/-- From one state to another, a list of reports is recorded. -/
def Records (reports : List Report) (s t : SavedNetwork) : Prop :=
  s.view.WellFormed → t.view.WellFormed ∧ t.view.ledger = s.view.ledger.recordAll reports

namespace Records

variable {l l' : List Report}

/-- A step that leaves the view reports nothing. -/
theorem of_view (same : t.view = s.view) : Records [] s t := fun wf =>
  ⟨same ▸ wf, congrArg NetworkView.ledger same⟩

/-- Reports come in the order of the steps. -/
theorem trans (first : Records l s t) (second : Records l' t u) : Records (l ++ l') s u := by
  intro wf
  obtain ⟨wf', recorded⟩ := first wf
  obtain ⟨wf'', recorded'⟩ := second wf'
  exact ⟨wf'', by rw [recorded', recorded, Ledger.recordAll_append]⟩

/-- A step that reports nothing may follow. -/
theorem silent (first : Records l s t) (second : Records [] t u) : Records l s u := by
  have both := first.trans second
  rwa [List.append_nil] at both

/-- An operation of the view that is a report. -/
theorem one (op : ViewOp) {report : Report} (edited : t.view = s.view.apply op)
    (recorded : s.view.WellFormed → (s.view.apply op).ledger = s.view.ledger.record report) :
    Records [report] s t := fun wf =>
  ⟨edited ▸ (NetworkView.apply_registers wf op).1, by rw [edited, recorded wf]; rfl⟩

/-- Marked failures are not recorded. -/
theorem of_edited (edited : Edited ViewOp.marks s.view t.view) : Records [] s t := fun wf => by
  refine edited.invariant (I := fun view => view.WellFormed ∧ view.ledger = s.view.ledger)
    (fun view op marks here => ?_) ⟨wf, rfl⟩
  obtain ⟨wf, same⟩ := here
  refine ⟨(NetworkView.apply_registers wf op).1, ?_⟩
  cases op with
  | markFailure failed now p a => exact (NetworkView.ledger_markFailure wf).trans same
  | _ => cases marks

/-- Reconciling marks failures at most, so there is nothing to report. -/
theorem reconcile (returned : s.reconcilePeerConnections env p = some s') : Records [] s s' :=
  .of_edited (reconcile_edited returned)

end Records

/-- An offered address is reported as learned unless it must not be dialed. -/
theorem onAddAddress_records (returned : s.onAddAddress env p a = some s') :
    Records (learns [(p, a)]) s s' := by
  unfold SavedNetwork.onAddAddress at returned
  split at returned
  · next skipped =>
    cases returned
    simp only [learns, skipped, List.filter_cons, Bool.not_true, Bool.false_eq_true, if_false,
      List.filter_nil, List.map_nil]
    exact .of_view rfl
  · next kept =>
    have learned : learns [(p, a)] = [.learned p a] := by simp [learns, kept]
    rw [learned]
    have added : Records [.learned p a] s
        (s.onView env fun now view => (view.addAddress now p a).2) :=
      .one (.addAddress (env.readings s.clockReads) p a) rfl NetworkView.ledger_addAddress
    dsimp only at returned
    split at returned
    · cases returned
      exact added
    · have told := added.silent (.of_view (tellKad_view _ (.kadAddAddress p a)))
      exact told.silent (.reconcile returned)

/-- An expired address is reported, known or not. -/
theorem onRemoveAddress_records (returned : s.onRemoveAddress env p a = some s') :
    Records [.expired p a] s s' := by
  have removed : Records [.expired p a] s
      (s.onView env fun now view => view.removeAddress now p a) :=
    .one (.removeAddress (env.readings s.clockReads) p a) rfl NetworkView.ledger_removeAddress
  have told := removed.silent (.of_view (tellKad_view _ (.kadRemoveAddress p a)))
  exact told.silent (.reconcile returned)

/-! ### Handlers -/

/-- **What a part reports.** -/
def Part.reports : Part → List Report
  | onAddAddress p a => learns [(p, a)]
  | onRemoveAddress p a => [.expired p a]
  | addConnection p c endpoint => [.established p c endpoint.remote]
  | removeConnection p c => [.closed p c]
  | setProtocols p protocols => [.speaks p protocols]
  | onPing p c (some rtt) => [.answered p c rtt]
  | _ => []

/-- A ping over a connection that the view does not know is a report all the same, and the ledger
records nothing of it. -/
theorem onPing_records {result : Option Duration} :
    Records (Part.reports (.onPing p c result)) s (s.onPing p c result) := by
  unfold onPing
  cases result with
  | none => exact .of_view rfl
  | some rtt =>
    dsimp only
    split
    · next known => exact .one (.setRtt p rtt) rfl fun _ => NetworkView.ledger_setRtt known
    · next unknown => exact fun wf => ⟨wf, (NetworkView.ledger_unknown unknown).symm⟩

/-- **A part records what it reports**, whichever way it exits. -/
theorem part_records (part : Part) (s : SavedNetwork) :
    (part.run env).Ensures s fun _ t => Records part.reports s t := by
  cases part with
  | onAddAddress p a =>
    exact Proc.ensures_attempt.mpr fun _ returned => onAddAddress_records returned
  | onRemoveAddress p a =>
    exact Proc.ensures_attempt.mpr fun _ returned => onRemoveAddress_records returned
  | addConnection p c endpoint =>
    exact Proc.ensures_update.mpr (.one (.addConnection (env.readings s.clockReads) p c endpoint)
      rfl NetworkView.ledger_addConnection)
  | removeConnection p c =>
    exact Proc.ensures_update.mpr (.one (.removeConnection (env.readings s.clockReads) p c) rfl
      NetworkView.ledger_removeConnection)
  | setProtocols p protocols =>
    exact Proc.ensures_update.mpr
      (.one (.setProtocols p protocols) rfl fun _ => NetworkView.ledger_setProtocols)
  | onPing p c result => exact Proc.ensures_update.mpr onPing_records
  | _ => exact (part_marks rfl).mono fun _ _ => .of_edited

/-- The parts of a handler report, one after another, what its event does. -/
theorem flatMap_reports (event : SwarmEvent) :
    event.parts.flatMap Part.reports = (Input.event event).reports := by
  have learned : ∀ (p : PeerId) (addrs : List Multiaddr),
      (addrs.map fun addr => Part.onAddAddress p addr).flatMap Part.reports =
        learns (addrs.map fun addr => (p, addr)) :=
    fun p addrs => (flatMap_learned _ p addrs).trans (flatMap_learns _)
  cases event with
  | mdnsDiscovered list =>
    rw [SwarmEvent.parts, List.flatMap_map]
    exact flatMap_learns list
  | mdnsExpired list =>
    rw [SwarmEvent.parts, List.flatMap_map]
    exact List.map_eq_flatMap.symm
  | newExternalAddrOfPeer p a => exact List.append_nil _
  | connectionEstablished p c endpoint =>
    rw [SwarmEvent.parts, List.flatMap_append]
    cases relayUsed endpoint <;> rfl
  | ping p c result => cases result <;> rfl
  | kadGetClosestPeers result =>
    cases result with
    | none => rfl
    | some peers =>
      show _ = learns (peers.flatMap fun peer => peer.2.map fun addr => (peer.1, addr))
      rw [SwarmEvent.parts, ← flatMap_learns, List.flatMap_assoc, List.flatMap_assoc]
      simp only [List.flatMap_cons, learned, flatMap_learns]
      rfl
  | identifyReceived p protocols listenAddrs =>
    rw [SwarmEvent.parts, List.flatMap_append, List.flatMap_cons, learned]
    exact List.append_nil _
  | _ => rfl

/-- **An event records what it reports**, whichever way its handler exits. -/
theorem onSwarmEvent_records (heard : ∀ n, env.sendOk n = true) (event : SwarmEvent) :
    (onSwarmEvent env event).Ensures s fun _ t => Records (Input.event event).reports s t := by
  rw [← flatMap_reports]
  refine onSwarmEvent_collects heard (fun _ => .of_view rfl) .trans (fun part closes => ?_)
    part_records event
  cases part with
  | reconcile | updateRelayState | register => rfl
  | _ => cases closes

/-- **A turn records what its input reports.** -/
theorem step_records (heard : ∀ n, env.sendOk n = true) (returned : s.step env i = some s') :
    Records i.reports s s' := by
  cases i with
  | event event => exact (onSwarmEvent_records heard event).of_exec returned
  | rpc rpc => exact .of_view (dispatchRpc_view returned)

/-- **The view is a ledger of reports.** In every run in which the broadcasts are heard, the view
keeps the accounts that the reports of the inputs make, recorded in order. So it does not depend on
the clock, on what dials answer, or on any request. -/
theorem view_of_reports (env : Env) (me : PeerId) (max : Nat) (heard : ∀ n, env.sendOk n = true)
    {ok : List Input → SavedNetwork → Input → Prop} {h : List Input} {s : SavedNetwork}
    (run : Run (SavedNetwork.step env) ok (.start me max) h s) :
    s.view.ledger = .of (h.flatMap Input.reports) := by
  have folded := run.refines (I := fun s => s.view.WellFormed) (fun s => s.view.ledger)
    (fun ledger i => ledger.recordAll i.reports) NetworkView.wellFormed_empty
    fun _ _ _ wf returned => step_records heard returned wf
  exact folded.trans List.foldl_flatMap.symm

/-- A peer is identified, connects, answers a ping and leaves. -/
theorem view_of_reports_identified : ∃ s, Run (SavedNetwork.step .calm) (fun _ _ _ => True)
    (.start ⟨[0]⟩ 4) [.event (.identifyReceived ⟨[1]⟩ ["/ipfs/ping/1.0.0"] [lanAddr 1]),
      .event (.connectionEstablished ⟨[1]⟩ ⟨0⟩ (.dialer (lanAddr 1))),
      .event (.ping ⟨[1]⟩ ⟨0⟩ (some 5)), .event (.connectionClosed ⟨[1]⟩ ⟨0⟩)] s ∧
    s.view.ledger = .of [.speaks ⟨[1]⟩ ["/ipfs/ping/1.0.0"], .learned ⟨[1]⟩ (lanAddr 1),
      .established ⟨[1]⟩ ⟨0⟩ (lanAddr 1), .answered ⟨[1]⟩ ⟨0⟩ 5, .closed ⟨[1]⟩ ⟨0⟩] := by
  obtain ⟨s, run, _⟩ : ∃ s, Run (SavedNetwork.step .calm) (fun _ _ _ => True) (.start ⟨[0]⟩ 4)
      [.event (.identifyReceived ⟨[1]⟩ ["/ipfs/ping/1.0.0"] [lanAddr 1]),
        .event (.connectionEstablished ⟨[1]⟩ ⟨0⟩ (.dialer (lanAddr 1))),
        .event (.ping ⟨[1]⟩ ⟨0⟩ (some 5)), .event (.connectionClosed ⟨[1]⟩ ⟨0⟩)] s ∧
      (!s.view.isConnected ⟨[1]⟩) = true := Run.exists_of_replay (by decide)
  exact ⟨s, run, view_of_reports .calm ⟨[0]⟩ 4 (fun _ => rfl) run⟩

end Saved
