import Mathlib.Data.List.Chain
import Saved.Laws.Methods
import Saved.Laws.Process
import Saved.Laws.Settings
import Saved.Main

/-!
# How the program can end

`main` gives up at the first request that fails. Its requests are made one after another, but the
task handles the events of the swarm in between, and they can switch modes, which turns Kademlia off
(`setActiveMode`); then `kad_bootstrap` and `kad_find_peer` fail. `main` does not meet that: it
names its targets last, and without targets no event switches the mode. So the errors it can end
with are few (`main_ends`).
-/

namespace Saved

open Saved.Lib SavedNetwork

variable {env : Env} {me id : PeerId} {max : Nat} {fromStr : String → PeerId} {bootstrap : Bool}
  {s s' : SavedNetwork} {request : SavedNetworkRpc} {answer : RpcAnswer}
  {log : List (SavedNetworkRpc × RpcAnswer)}

/-! ## The plan -/

/-- The target that a request names. -/
def SavedNetworkRpc.target : SavedNetworkRpc → Option PeerId
  | addTargetPeer target => some target
  | _ => none

/-- A request turns nothing off, dials a peer and drops no target. -/
def SavedNetworkRpc.Planned : SavedNetworkRpc → Prop
  | setMdnsEnabled enabled => enabled = true
  | setKadEnabled enabled _ => enabled = true
  | dial addr => addr.namesPeer = true
  | removeTargetPeer _ => False
  | kadFindPeer _ | kadBootstrap | addTargetPeer _ => True

/-- The errors of a request, when Kademlia is on and the address of a dial names a peer. -/
def SavedNetworkRpc.MayFail (request : SavedNetworkRpc) (error : SavedError) : Prop :=
  request = .kadBootstrap ∧ error = .kadNoKnownPeers ∨
    ∃ addr, request = .dial addr ∧ error = .dial addr

/-- The errors of the bootstrap. -/
def bootstrapErrors (fromStr : String → PeerId) (bootstrap : Bool) : List SavedError :=
  if bootstrap then .kadNoKnownPeers :: (bootstrapAddrs fromStr).map .dial else []

/-- The addresses in `main.rs` and the ones built from ids all end in `/p2p`, so no dial of the
bootstrap is refused for want of a peer. -/
theorem namesPeer_of_bootstrapAddrs {addr : Multiaddr} (listed : addr ∈ bootstrapAddrs fromStr) :
    addr.namesPeer = true := by
  rcases List.mem_append.mp listed with named | fixed
  · obtain ⟨name, _, rfl⟩ := List.mem_map.mp named
    rfl
  · cases List.mem_singleton.mp fixed
    rfl

/-- The requests of the first part of `main`, one by one. -/
theorem mem_searchRequests : request ∈ searchRequests fromStr id bootstrap ↔
    request = .setKadEnabled true .client ∨ request = .setMdnsEnabled true ∨
    (bootstrap = true ∧ ((∃ addr ∈ bootstrapAddrs fromStr, .dial addr = request) ∨
      request = .kadBootstrap)) ∨ request = .kadFindPeer id := by
  unfold searchRequests
  cases bootstrap <;> simp [or_assoc]

/-- The targets are added after everything else. -/
theorem mem_mainRequests : request ∈ mainRequests fromStr id bootstrap ↔
    request ∈ searchRequests fromStr id bootstrap ∨
    ∃ target ∈ seedPeers fromStr, .addTargetPeer target = request := by
  rw [mainRequests, List.mem_append, List.mem_map]

/-- Nothing in the first part names a target. -/
theorem target_of_searchRequests (listed : request ∈ searchRequests fromStr id bootstrap) :
    request.target = none := by
  rcases mem_searchRequests.mp listed with
    rfl | rfl | ⟨_, ⟨addr, _, rfl⟩ | rfl⟩ | rfl <;> rfl

/-- What `main` asks for never undoes what it asked for before. -/
theorem planned_of_mainRequests (listed : request ∈ mainRequests fromStr id bootstrap) :
    request.Planned := by
  rcases mem_mainRequests.mp listed with searches | ⟨target, _, rfl⟩
  · rcases mem_searchRequests.mp searches with
      rfl | rfl | ⟨_, ⟨addr, known, rfl⟩ | rfl⟩ | rfl
    · rfl
    · rfl
    · exact namesPeer_of_bootstrapAddrs known
    · trivial
    · trivial
  · trivial

/-- A request that may fail is one of the bootstrap, and its error is on the list. -/
theorem bootstrapErrors_of_mayFail {error : SavedError}
    (listed : request ∈ mainRequests fromStr id bootstrap) (fails : request.MayFail error) :
    error ∈ bootstrapErrors fromStr bootstrap := by
  unfold bootstrapErrors
  rcases fails with ⟨rfl, rfl⟩ | ⟨addr, rfl, rfl⟩
  · have here : bootstrap = true := by
      simpa [mem_mainRequests, mem_searchRequests] using listed
    simp [here]
  · have here : bootstrap = true ∧ addr ∈ bootstrapAddrs fromStr := by
      simpa [mem_mainRequests, mem_searchRequests] using listed
    simp [here]

/-- **The targets come last.** -/
theorem targets_last : (mainRequests fromStr id bootstrap).Pairwise fun before after =>
    after.target = none → before.target = none := by
  refine List.pairwise_append.mpr ⟨?_, ?_, ?_⟩
  · exact List.pairwise_of_forall_mem_list fun before here _ _ _ => target_of_searchRequests here
  · refine List.pairwise_of_forall_mem_list fun before _ after named untargeted => ?_
    obtain ⟨target, _, rfl⟩ := List.mem_map.mp named
    cases untargeted
  · exact fun before here _ _ _ => target_of_searchRequests here

/-! ## One request -/

/-- What a method ensures carries over to the answer that is built from its result. -/
theorem answering_ensures {α : Type} {value : α → RpcValue} {method : NetM α}
    {Q : Except SavedError α → SavedNetwork → Prop} (ensures : method.Ensures s Q)
    (returned : answering value method s = some (answer, s')) :
    ∃ r, answer = r.map value ∧ Q r s' := by
  obtain ⟨⟨r, t⟩, ran, here⟩ := Option.map_eq_some_iff.mp returned
  cases here
  exact ⟨r, rfl, ensures r _ ran⟩

/-- **A planned request does what it says**, and fails in one of two ways only. -/
theorem planned_answer (planned : request.Planned) (mdns : s.swarm.mdns = true)
    (kad : (∀ mode, request ≠ .setKadEnabled true mode) → request.target = none →
      s.swarm.kad.isSome = true)
    (answers : answerRpc env request s = some (answer, s')) :
    s'.settings = s.settings.turn none (.rpc request) ∧ s'.view = s.view ∧
      ∀ error, answer = .error error → request.MayFail error := by
  -- It is enough to say what a method ensures of the settings, the view and the failures.
  have of_method : ∀ method : NetM Unit,
      (method.Ensures s fun r t => t.settings = s.settings.turn none (.rpc request) ∧
        t.view = s.view ∧ ∀ error, r = .error error → request.MayFail error) →
      answering (fun _ => .unit) method s = some (answer, s') →
      s'.settings = s.settings.turn none (.rpc request) ∧ s'.view = s.view ∧
        ∀ error, answer = .error error → request.MayFail error := by
    intro method ensures returned
    obtain ⟨r, rfl, settings, view, fails⟩ := answering_ensures ensures returned
    refine ⟨settings, view, fun error failed => fails error ?_⟩
    cases r with
    | error e =>
      cases failed
      rfl
    | ok _ => cases failed
  cases request with
  | setMdnsEnabled enabled =>
    obtain rfl : enabled = true := planned
    refine of_method _ (ensures_startMdns.mpr ⟨fun on => ⟨?_, rfl, nofun⟩, fun off => ?_⟩) answers
    · show s.settings = { s.settings with mdns := true }
      rw [← on]
      rfl
    · exact absurd mdns off
  | setKadEnabled enabled mode =>
    obtain rfl : enabled = true := planned
    refine of_method _ (ensures_setKadEnabled.mpr ⟨fun _ => ⟨rfl, rfl, nofun⟩, ?_⟩) answers
    exact fun off => absurd rfl off
  | kadFindPeer target =>
    refine of_method _ (ensures_kadFindPeer.mpr ⟨fun _ => ⟨rfl, rfl, nofun⟩, ?_⟩) answers
    exact fun off => absurd (kad nofun rfl) off
  | kadBootstrap =>
    refine of_method _ (ensures_kadBootstrap.mpr
      ⟨fun _ => ⟨fun _ => ⟨rfl, rfl, nofun⟩, fun _ => ⟨rfl, rfl, ?_⟩⟩, ?_⟩) answers
    · rintro error ⟨⟩
      exact .inl ⟨rfl, rfl⟩
    · exact fun off => absurd (kad nofun rfl) off
  | dial addr =>
    refine of_method _ (ensures_dial.mpr
      ⟨fun _ => ⟨fun _ => ⟨rfl, rfl, nofun⟩, fun _ => ⟨rfl, rfl, ?_⟩⟩, ?_⟩) answers
    · rintro error ⟨⟩
      exact .inr ⟨addr, rfl, rfl⟩
    · exact fun nameless => absurd planned nameless
  | addTargetPeer target =>
    cases answers
    exact ⟨rfl, rfl, nofun⟩
  | removeTargetPeer target => exact planned.elim

/-! ## The plan under way -/

/-- **Where the requests of `main` have led.** Once Kademlia was asked for it is on, until a target
is named. -/
structure OnPlan (log : List (SavedNetworkRpc × RpcAnswer)) (s : SavedNetwork) : Prop where
  wf : s.view.WellFormed
  mdns : s.swarm.mdns = true
  targets : ∀ q, q ∈ s.targetPeers ↔ .addTargetPeer q ∈ log.map Prod.fst
  kad : log ≠ [] → (∀ q, q ∉ s.targetPeers) → s.swarm.kad.isSome = true
  failures : ∀ request error, (request, .error error) ∈ log → request.MayFail error

/-- Without a target no event asks for a switch of the mode, which is what keeps Kademlia on until
the targets are named. -/
theorem target_of_switchAfter {i : Input} (asks : s.switchAfter i ≠ none) :
    ∃ q, q ∈ s.targetPeers := by
  unfold switchAfter at asks
  split at asks
  · exact target_of_openSwitch asks
  · exact target_of_closeSwitch asks
  · exact absurd rfl asks

/-- An event does not turn mDNS off. -/
theorem Settings.turn_mdns {settings : Settings} {switch : Option Bool} {event : SwarmEvent}
    (on : settings.mdns = true) : (settings.turn switch (.event event)).mdns = true := by
  have switched : ∀ active, (settings.switched active).mdns = true := by
    intro active
    cases active with
    | false => exact on
    | true => rfl
  cases event with
  | connectionEstablished | connectionClosed =>
    cases switch with
    | none => exact on
    | some active => exact switched active
  | _ => exact on

/-- Without a switch, an event leaves Kademlia alone. -/
theorem Settings.turn_kad {settings : Settings} {event : SwarmEvent} :
    (settings.turn none (.event event)).kad = settings.kad := by
  cases event <;> rfl

/-- **What an event leaves on**: mDNS, and Kademlia when there are no targets. -/
theorem event_keeps {event : SwarmEvent} (wf : s.view.WellFormed) (mdns : s.swarm.mdns = true)
    (turned : s.step env (.event event) = some s') : s'.swarm.mdns = true ∧
      ((∀ q, q ∉ s.targetPeers) → s'.swarm.kad = s.swarm.kad) := by
  rcases step_settings wf turned with set | ⟨_, same | ⟨off, _⟩⟩
  · refine ⟨?_, fun free => ?_⟩
    · exact (congrArg Settings.mdns set).trans (Settings.turn_mdns mdns)
    · have unswitched : s'.switchAfter (.event event) = none := by
        refine not_not.mp fun asks => ?_
        obtain ⟨q, target⟩ := target_of_switchAfter asks
        have targets : s'.targetPeers = s.targetPeers := step_targetPeers turned
        exact free q (targets ▸ target)
      have kad := congrArg Settings.kad set
      rw [unswitched, Settings.turn_kad] at kad
      exact kad
  · exact ⟨(congrArg Settings.mdns same).trans mdns, fun _ => congrArg Settings.kad same⟩
  · exact absurd (off.symm.trans mdns) nofun

namespace OnPlan

/-- Before the first request mDNS is on, there are no targets, and nothing is promised of
Kademlia. -/
theorem start : OnPlan [] (.start me max) where
  wf := NetworkView.wellFormed_empty
  mdns := rfl
  targets q := ⟨fun target => absurd target (HashSet.not_mem_empty q), nofun⟩
  kad fresh := absurd rfl fresh
  failures _ _ := nofun

/-- **An event keeps to the plan**: it switches the mode only when there are targets. -/
theorem turned {event : SwarmEvent} (plan : OnPlan log s)
    (returned : (onSwarmEvent env event).exec s = some s') : OnPlan log s' := by
  have turned : s.step env (.event event) = some s' := returned
  have targets : s'.targetPeers = s.targetPeers := step_targetPeers turned
  have wf : s'.view.WellFormed := by
    obtain ⟨_, stepped⟩ := step_stepped turned
    exact (stepped.tracked plan.wf).1
  obtain ⟨mdns, kad⟩ := event_keeps plan.wf plan.mdns turned
  refine ⟨wf, mdns, fun q => ?_, fun begun free => ?_, plan.failures⟩
  · rw [targets]
    exact plan.targets q
  · rw [targets] at free
    rw [kad free]
    exact plan.kad begun free

/-- **The next request of the plan.** -/
theorem served (plan : OnPlan log s)
    (planned : log.map Prod.fst ++ [request] <+: mainRequests fromStr id bootstrap)
    (answers : answerRpc env request s = some (answer, s')) :
    OnPlan (log ++ [(request, answer)]) s' := by
  have listed : request ∈ mainRequests fromStr id bootstrap :=
    planned.subset (List.mem_append_right _ (List.mem_singleton.mpr rfl))
  -- The targets come last, so before a request that names none there is no target.
  have before : request.target = none → ∀ q, q ∉ s.targetPeers := by
    intro untargeted q target
    have ordered := (targets_last.sublist planned.sublist)
    have asked := (plan.targets q).mp target
    have none := (List.pairwise_append.mp ordered).2.2 _ asked request
      (List.mem_singleton.mpr rfl) untargeted
    cases none
  -- Kademlia is switched on by the first request.
  have first : (∀ mode, request ≠ .setKadEnabled true mode) → log ≠ [] := by
    rintro other rfl
    exact other .client (List.cons_prefix_cons.mp planned).1
  obtain ⟨set, view, fails⟩ := planned_answer (planned_of_mainRequests listed) plan.mdns
    (fun other untargeted => plan.kad (first other) (before untargeted)) answers
  have targets : s'.targetPeers = (Input.rpc request).retarget s.targetPeers :=
    (congrArg Settings.targetPeers set).trans (Settings.turn_targetPeers _)
  refine ⟨view ▸ plan.wf, ?_, fun q => ?_, fun _ free => ?_, fun asked error entered => ?_⟩
  · have mdns : s.settings.mdns = true := plan.mdns
    show s'.settings.mdns = true
    rw [set]
    cases request with
    | setMdnsEnabled enabled => exact planned_of_mainRequests listed
    | _ => exact mdns
  · rw [targets, List.map_append, List.mem_append, ← plan.targets]
    cases request with
    | addTargetPeer target =>
      simp only [Input.retarget, HashSet.mem_insert, List.map_cons, List.map_nil,
        List.mem_singleton, SavedNetworkRpc.addTargetPeer.injEq]
      exact Or.comm
    | removeTargetPeer target => exact (planned_of_mainRequests listed).elim
    | _ => simp [Input.retarget]
  · show s'.settings.kad.isSome = true
    rw [set]
    cases request with
    | setKadEnabled enabled mode =>
      obtain rfl : enabled = true := planned_of_mainRequests listed
      rfl
    | addTargetPeer target =>
      have named : target ∈ s'.targetPeers := by
        rw [targets]
        exact HashSet.mem_insert.mpr (.inl rfl)
      exact absurd named (free target)
    | removeTargetPeer target => exact (planned_of_mainRequests listed).elim
    | _ => exact plan.kad (first fun mode same => by cases same) (before rfl)
  · rcases List.mem_append.mp entered with old | new
    · exact plan.failures asked error old
    · cases List.mem_singleton.mp new
      exact fails error rfl

/-- **Every history that begins the plan keeps to it.** -/
theorem sequential (history : (networkService env me max).Sequential log s)
    (planned : log.map Prod.fst <+: mainRequests fromStr id bootstrap) : OnPlan log s := by
  induction history with
  | start => exact .start
  | serve _ answers ih =>
    rw [List.map_append] at planned
    exact (ih ((List.prefix_append _ _).trans planned)).served planned answers
  | turn _ returned ih => exact (ih planned).turned returned

end OnPlan

/-! ## The program -/

/-- **How `main` goes, and how it can end.** In every run of the process in which the only calls are
those of `main`, whatever the swarm does: the requests answered are the first of its list, in order;
the targets are those named so far; mDNS is on all the time, and Kademlia from the first answer
until a target is named. So a request fails only when the task has stopped, or in the bootstrap, by
a dial that the swarm refuses or for want of known peers. -/
theorem main_ends (env : Env) (me : PeerId) (max : Nat) (fromStr : String → PeerId)
    (bootstrap : Bool) {tokio : Channels SavedNetworkRpc RpcAnswer SwarmEvent}
    (lawful : tokio.Lawful) {h : List ProcessAct} {p : Process}
    (run : Run (Process.step env me max)
      (fun h p act => tokio h act ∧ Process.Main fromStr me bootstrap p act)
      (Process.start env me max) h p) :
    (answers h).map Prod.fst <+: mainRequests fromStr me bootstrap ∧
    (∀ q, q ∈ p.state.targetPeers ↔ .addTargetPeer q ∈ (answers h).map Prod.fst) ∧
    p.state.swarm.mdns = true ∧
    (answers h ≠ [] → (∀ q, q ∉ p.state.targetPeers) → p.state.swarm.kad.isSome = true) ∧
    ∀ id error, p.result id = some (.error error) → error.ofChannel = true ∨
      ∃ cause ∈ bootstrapErrors fromStr bootstrap, error = .network cause := by
  have script := Server.scripted_run lawful run
  have plan := OnPlan.sequential (Server.sequential_run run) script
  refine ⟨script, plan.targets, plan.mdns, plan.kad, fun id error returned => ?_⟩
  obtain ⟨request, given, caller, failed⟩ := Process.result_eq_some.mp returned
  rcases given with fault | answer
  · exact .inl (by cases fault <;> cases failed <;> rfl)
  · rcases answer with cause | value
    · cases failed
      -- the task answered with an error, which is one of the bootstrap's
      have inv := Server.inv_run lawful (run.mono fun _ _ _ => And.left)
      have answered := inv.mem_answers caller
      have listed := script.subset (List.mem_map_of_mem answered)
      have fails := plan.failures request cause answered
      exact .inr ⟨cause, bootstrapErrors_of_mayFail listed fails, rfl⟩
    · cases failed

/-- `main` without a bootstrap, to its first target: the requests, each with its answer. -/
def mainWithoutBootstrap : List ProcessAct :=
  let plan : List (SavedNetworkRpc × RpcValue) :=
    [(.setKadEnabled true .client, .unit), (.setMdnsEnabled true, .unit),
      (.kadFindPeer ⟨[0]⟩, .unit), (.addTargetPeer ⟨[1]⟩, .bool true)]
  plan.zipIdx.flatMap fun ((request, value), id) =>
    [.call id request, .accept id request, .serve id request (.ok value), .receive id (.ok value)]

/-- The target is named. -/
theorem main_ends_target : ∃ p, Run (Process.step .calm ⟨[0]⟩ 4)
    (fun h p act => boundedChannels h act ∧ Process.Main (fun _ => ⟨[1]⟩) ⟨[0]⟩ false p act)
      (Process.start .calm ⟨[0]⟩ 4) mainWithoutBootstrap p ∧ ⟨[1]⟩ ∈ p.state.targetPeers := by
  obtain ⟨p, run, asked⟩ : ∃ p, Run (Process.step .calm ⟨[0]⟩ 4)
      (fun h p act => boundedChannels h act ∧ Process.Main (fun _ => ⟨[1]⟩) ⟨[0]⟩ false p act)
        (Process.start .calm ⟨[0]⟩ 4) mainWithoutBootstrap p ∧
      decide (.addTargetPeer ⟨[1]⟩ ∈ (answers mainWithoutBootstrap).map Prod.fst) = true :=
    Run.exists_of_replay (by decide)
  have ends := main_ends .calm ⟨[0]⟩ 4 (fun _ => ⟨[1]⟩) false (lawful_bounded channelCapacity) run
  exact ⟨p, run, (ends.2.1 _).mpr (of_decide_eq_true asked)⟩

end Saved
