import Saved.Laws.Alike

/-!
# The controller

A node has a purpose that can be said without addresses, dials and clocks: keep an account of what
is reported of peers, and search for the targets as long as one of them is missing. `Controller` is
that machine. Its turn records what an input reports; where a connection of a target was opened or
closed, it chooses a mode by the targets that are connected then, and the mode sets Kademlia and
mDNS.

`node_refines_controller` says that in every run in favourable surroundings a node is in the state
of the controller that took the same inputs. What holds of the controller, by an induction over its
inputs alone, then holds of nodes: `last_switch_decides` is the law of the modes.
-/

namespace Saved

open Saved.Lib SavedNetwork

/-- A peer is connected, as far as was reported. -/
def Ledger.Connected (ledger : Ledger) (p : PeerId) : Prop := (ledger.account p).register.Occupied

/-- **What a node is for.** -/
structure Controller where
  ledger : Ledger
  settings : Settings

namespace Controller

/-- Nothing is known, mDNS is on, and the search has not begun. -/
def start : Controller := ⟨fun _ => none, ⟨true, none, true, .empty, .unknown⟩⟩

variable (controller : Controller)

/-- The mode an input asks for, once it is recorded: active when a target is missing. -/
noncomputable def asks (ledger : Ledger) (targets : HashSet PeerId) : Input → Option Bool :=
  open Classical in fun
  | .event (.connectionEstablished p _ _) =>
    if p ∈ targets then some (decide (∃ q ∈ targets, ¬ ledger.Connected q)) else none
  | .event (.connectionClosed p _) =>
    if p ∈ targets ∧ ¬ ledger.Connected p then some true else none
  | _ => none

/-- The mode that an input switches to. -/
noncomputable def switch (i : Input) : Option Bool :=
  asks (controller.ledger.recordAll i.reports) controller.settings.targetPeers i

/-- **One turn.** -/
noncomputable def turn (i : Input) : Controller where
  ledger := controller.ledger.recordAll i.reports
  settings := controller.settings.turn (controller.switch i) i

/-- **The controller of a list of inputs.** -/
noncomputable def of (h : List Input) : Controller := h.foldl turn start

/-- The modes that it switches to, in order. -/
noncomputable def switches : Controller → List Input → List Bool
  | _, [] => []
  | controller, i :: h => (controller.switch i).toList ++ switches (controller.turn i) h

/-- The controller turns once for each input. -/
theorem of_append (h : List Input) (i : Input) : of (h ++ [i]) = (of h).turn i :=
  List.foldl_append

/-- The switches of a history are those of its inputs in turn, each read in the state before it. -/
theorem switches_append (h : List Input) (i : Input) :
    controller.switches (h ++ [i]) =
      controller.switches h ++ ((h.foldl turn controller).switch i).toList := by
  induction h generalizing controller with
  | nil => exact List.append_nil _
  | cons first h ih =>
    show _ ++ switches _ (h ++ [i]) = (_ ++ switches _ h) ++ _
    rw [ih, List.append_assoc]
    rfl

end Controller

/-- The controller that a node is. -/
def SavedNetwork.controller (s : SavedNetwork) : Controller := ⟨s.view.ledger, s.settings⟩

variable {env : Env} {s s' : SavedNetwork} {i : Input} {view : NetworkView} {p : PeerId}

/-! ## Refinement -/

/-- The ledger's notion of a connected peer is the answer of `is_connected`. -/
theorem connected_ledger (wf : view.WellFormed) :
    view.ledger.Connected p ↔ view.isConnected p = true := by
  rw [NetworkView.isConnected_iff wf, NetworkView.registers_ledger]
  rfl

open Classical in

/-- The mode that a turn asks for is the controller's. -/
theorem asks_of_switchAfter (wf : s.view.WellFormed) :
    Controller.asks s.view.ledger s.targetPeers i = s.switchAfter i := by
  cases i with
  | rpc rpc => rfl
  | event event =>
    cases event with
    | connectionEstablished p c endpoint =>
      have missing : (∃ q ∈ s.targetPeers, ¬ s.view.ledger.Connected q) ↔
          (s.targetPeers.toList.any fun q => !s.view.isConnected q) = true := by
        rw [List.any_eq_true]
        refine exists_congr fun q => and_congr Iff.rfl ?_
        rw [connected_ledger wf, Bool.not_eq_true', Bool.not_eq_true]
      show Controller.asks _ _ _ = openSwitch s p
      unfold Controller.asks openSwitch
      refine if_congr Iff.rfl (congrArg some ?_) rfl
      rw [Bool.eq_iff_iff, decide_eq_true_eq]
      exact missing
    | connectionClosed p c =>
      show Controller.asks _ _ _ = closeSwitch s p
      unfold Controller.asks closeSwitch
      refine if_congr (and_congr Iff.rfl ?_) rfl rfl
      rw [connected_ledger wf, Bool.not_eq_true]
    | _ => rfl

/-- An input that asks for a mode leaves the targets. -/
theorem asks_retarget (ledger : Ledger) (targets : HashSet PeerId) :
    Controller.asks ledger (i.retarget targets) i = Controller.asks ledger targets i := by
  cases i with
  | rpc rpc => rfl
  | event event => rfl

/-- **One turn of the node is one of the controller.** -/
theorem step_controller (favourable : env.Favourable) (wf : s.view.WellFormed)
    (returned : s.step env i = some s') : s'.controller = s.controller.turn i := by
  obtain ⟨wf', recorded⟩ := step_records favourable.heard returned wf
  have switch : s'.switchAfter i = s.controller.switch i := by
    rw [← asks_of_switchAfter wf', recorded, step_targetPeers returned, asks_retarget]
    rfl
  show Controller.mk _ _ = Controller.mk _ _
  rw [recorded, step_settings_exactly favourable wf returned, switch]
  rfl

/-- **A node refines the controller.** In every run in which broadcasts are heard and mDNS starts,
the accounts that a node keeps and its settings are those of the controller that took the same
inputs. -/
theorem node_refines_controller (env : Env) (me : PeerId) (max : Nat)
    (favourable : env.Favourable) {ok : List Input → SavedNetwork → Input → Prop} {h : List Input}
    {s : SavedNetwork} (run : Run (SavedNetwork.step env) ok (.start me max) h s) :
    s.controller = .of h := by
  exact run.refines (I := fun s => s.view.WellFormed) SavedNetwork.controller Controller.turn
    NetworkView.wellFormed_empty fun _ _ _ wf returned =>
      ⟨(step_records favourable.heard returned wf).1, step_controller favourable wf returned⟩

/-- A target is named, and found on the local network. -/
def targetFound : List Input :=
  [.rpc (.addTargetPeer ⟨[1]⟩), .event (.mdnsDiscovered [(⟨[1]⟩, lanAddr 1)]),
    .event (.connectionEstablished ⟨[1]⟩ ⟨0⟩ (.dialer (lanAddr 1)))]

/-- A target that is found, from a node with nothing to a passive one. -/
theorem node_refines_controller_found : ∃ s,
    Run (SavedNetwork.step .calm) (fun _ _ _ => True) (.start ⟨[0]⟩ 4) targetFound s ∧
    s.view.isConnected ⟨[1]⟩ = true ∧ s.controller = .of targetFound := by
  obtain ⟨s, run, up⟩ : ∃ s, Run (SavedNetwork.step .calm) (fun _ _ _ => True)
      (.start ⟨[0]⟩ 4) targetFound s ∧ s.view.isConnected ⟨[1]⟩ = true :=
    Run.exists_of_replay (by decide)
  exact ⟨s, run, up,
    node_refines_controller .calm ⟨[0]⟩ 4 ⟨fun _ => rfl, fun _ => rfl⟩ run⟩

/-! ## The modes -/

/-- A request sets Kademlia or mDNS. -/
def Input.overrides : Input → Bool
  | .rpc (.setKadEnabled _ _) => true
  | .rpc (.setMdnsEnabled _) => true
  | _ => false

/-- **What a list of switches leaves.** -/
structure Settings.Last (modes : List Bool) (settings : Settings) : Prop where
  mdns : settings.mdns = true
  activeMode : settings.activeMode = modes.getLastD true
  kad : settings.kad = if modes.getLast? = some true then some ⟨some .client⟩ else none

namespace Settings.Last

variable {modes : List Bool} {settings : Settings}

/-- One switch more. -/
theorem switched (last : Last modes settings) (active : Bool) :
    Last (modes ++ [active]) (settings.switched active) := by
  cases active with
  | true => exact ⟨rfl, by rw [List.getLastD_concat]; rfl, by rw [List.getLast?_concat]; rfl⟩
  | false =>
    exact ⟨last.mdns, by rw [List.getLastD_concat]; rfl, by rw [List.getLast?_concat]; rfl⟩

/-- **One turn.** -/
theorem turn (last : Last modes settings) (ledger : Ledger) (targets : HashSet PeerId)
    (plain : i.overrides = false) :
    Last (modes ++ (Controller.asks ledger targets i).toList)
      (settings.turn (Controller.asks ledger targets i) i) := by
  have kept : Last (modes ++ []) settings := by rwa [List.append_nil]
  have asked : ∀ switch : Option Bool,
      Last (modes ++ switch.toList) (switch.elim settings settings.switched) := by
    intro switch
    cases switch with
    | none => exact kept
    | some active => exact last.switched active
  cases i with
  | rpc rpc =>
    cases rpc with
    | setKadEnabled | setMdnsEnabled => cases plain
    | _ => exact ⟨kept.mdns, kept.activeMode, kept.kad⟩
  | event event =>
    cases event with
    | connectionEstablished | connectionClosed => exact asked _
    | _ => exact ⟨kept.mdns, kept.activeMode, kept.kad⟩

end Settings.Last

/-- The law of the modes, for a controller. -/
theorem Controller.last_switch (h : List Input) (plain : ∀ i ∈ h, i.overrides = false) :
    Settings.Last (start.switches h) (Controller.of h).settings := by
  induction h using List.reverseRecOn with
  | nil => exact ⟨rfl, rfl, rfl⟩
  | append_singleton h i ih =>
    have before := ih fun j mem => plain j (List.mem_append_left _ mem)
    rw [switches_append, of_append]
    exact before.turn _ _ (plain i (List.mem_append_right _ (List.mem_singleton_self i)))

/-- **The last switch decides.** In every run in favourable surroundings in which no request sets
Kademlia or mDNS, mDNS is on throughout, and the node is in the mode it switched to last, or in
active mode when it never has. Kademlia is on, as a client, if that switch was to active mode; it is
off after a switch to passive mode, and before the first switch, though the mode is active then. -/
theorem last_switch_decides (env : Env) (me : PeerId) (max : Nat) (favourable : env.Favourable)
    {ok : List Input → SavedNetwork → Input → Prop} {h : List Input} {s : SavedNetwork}
    (run : Run (SavedNetwork.step env) ok (.start me max) h s)
    (plain : ∀ i ∈ h, i.overrides = false) :
    Settings.Last (Controller.start.switches h) s.settings := by
  have refines := node_refines_controller env me max favourable run
  have settings : s.settings = (Controller.of h).settings := congrArg Controller.settings refines
  rw [settings]
  exact Controller.last_switch h plain

/-- The same run: the switch that counts is the one at the connection. -/
theorem last_switch_decides_found : ∃ s,
    Run (SavedNetwork.step .calm) (fun _ _ _ => True) (.start ⟨[0]⟩ 4) targetFound s ∧
    s.activeMode = false ∧ Settings.Last (Controller.start.switches targetFound) s.settings := by
  obtain ⟨s, run, passive⟩ : ∃ s, Run (SavedNetwork.step .calm) (fun _ _ _ => True)
      (.start ⟨[0]⟩ 4) targetFound s ∧ (!s.activeMode) = true := Run.exists_of_replay (by decide)
  exact ⟨s, run, Bool.eq_false_of_not_eq_true' passive,
    last_switch_decides .calm ⟨[0]⟩ 4 ⟨fun _ => rfl, fun _ => rfl⟩ run (by decide)⟩

end Saved
