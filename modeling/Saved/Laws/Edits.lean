import Mathlib.Logic.Relation
import Saved.Laws.TurnTraces

/-!
# What a turn does to the view

A turn changes the view by the operations of the view, and by nothing else: `Edited` is the closure
of the operations that satisfy a condition. The handlers of connections make the one operation of
their event and then mark failures (`closed_edited`, `opened_edited`), and only a ping stores a
round-trip time (`step_edited`). What each operation keeps, a turn keeps (`Edited.invariant`).
-/

namespace Saved

open Saved.Lib SavedNetwork

/-- **A view edited** by operations that satisfy a condition. -/
def Edited (ok : ViewOp → Prop) : NetworkView → NetworkView → Prop :=
  Relation.ReflTransGen fun v v' => ∃ op, ok op ∧ v' = v.apply op

/-- The operations that mark a failure. -/
def ViewOp.marks : ViewOp → Prop
  | markFailure _ _ _ _ => True
  | _ => False

/-- The operations that store no round-trip time. -/
def ViewOp.unmeasured (op : ViewOp) : Prop := ∀ p rtt, op ≠ .setRtt p rtt

/-- A failure is no ping answer. -/
theorem ViewOp.unmeasured_of_marks {op : ViewOp} (marks : op.marks) : op.unmeasured := by
  rintro p rtt rfl
  exact marks

variable {env : Env} {s s' : SavedNetwork} {p : PeerId} {a : Multiaddr} {c : ConnectionId}
  {v v' w : NetworkView} {ok ok' : ViewOp → Prop}

namespace Edited

/-- A step that leaves the view makes no edit. -/
theorem of_eq (same : v' = v) : Edited ok v v' := same ▸ .refl

/-- An operation is an edit of one step. -/
theorem one (op : ViewOp) (meets : ok op) : Edited ok v (v.apply op) := .single ⟨op, meets, rfl⟩

/-- Edits come after each other. -/
theorem trans (first : Edited ok v w) (second : Edited ok w v') : Edited ok v v' :=
  Relation.ReflTransGen.trans first second

/-- A kind of operation may be widened. -/
theorem mono (weaker : ∀ op, ok op → ok' op) (edited : Edited ok v v') : Edited ok' v v' :=
  Relation.ReflTransGen.mono (fun _ _ step => by
    obtain ⟨op, meets, same⟩ := step
    exact ⟨op, weaker op meets, same⟩) _ _ edited

/-- **What each of the operations keeps, the edit keeps.** -/
theorem invariant {I : NetworkView → Prop} (edited : Edited ok v v')
    (keeps : ∀ v op, ok op → I v → I (v.apply op)) (init : I v) : I v' := by
  induction edited with
  | refl => exact init
  | tail _ step ih =>
    obtain ⟨op, meets, rfl⟩ := step
    exact keeps _ op meets ih

end Edited

/-! ## The handlers -/

/-- **A reconcile marks failures**, and that is all. -/
theorem Reconciled.edited (h : Reconciled env p s s') : Edited ViewOp.marks s.view s'.view := by
  have marked : ∀ (s : SavedNetwork) (a : Multiaddr),
      Edited ViewOp.marks s.view (s.markFailure env p a).view := fun s a =>
    .one (.markFailure (env.clock s.clockReads 0) (env.readings (s.clockReads + 1)) p a) trivial
  induction h with
  | unknown | keep | wait | prune | dialed | migrate => exact .refl
  | redial _ _ _ _ ih => exact .trans (marked _ _) ih
  | migrateFailed => exact marked _ _

/-- A reconciliation edits the view by the failures of its dials. -/
theorem reconcile_edited (returned : s.reconcilePeerConnections env p = some s') :
    Edited ViewOp.marks s.view s'.view := (reconciled_of_returned returned).edited

/-- What is said to Kademlia is not in the view. -/
theorem tellKad_view (s : SavedNetwork) (call : Call) : (s.tellKad call).view = s.view := by
  unfold SavedNetwork.tellKad
  split <;> rfl

/-- One addition, and the edits of the reconciliation. -/
theorem onAddAddress_edited (returned : s.onAddAddress env p a = some s') :
    Edited ViewOp.unmeasured s.view s'.view := by
  unfold SavedNetwork.onAddAddress at returned
  split at returned
  · cases returned
    exact .refl
  · have added : Edited ViewOp.unmeasured s.view
        (s.view.addAddress (env.readings s.clockReads) p a).2 :=
      .one (.addAddress (env.readings s.clockReads) p a) (by simp [ViewOp.unmeasured])
    dsimp only at returned
    split at returned
    · cases returned
      exact added
    · have edited := reconcile_edited returned
      rw [tellKad_view] at edited
      exact added.trans (edited.mono fun _ => ViewOp.unmeasured_of_marks)

/-- One removal, and the edits of the reconciliation. -/
theorem onRemoveAddress_edited (returned : s.onRemoveAddress env p a = some s') :
    Edited ViewOp.unmeasured s.view s'.view := by
  have removed : Edited ViewOp.unmeasured s.view
      (s.view.removeAddress (env.readings s.clockReads) p a) :=
    .one (.removeAddress (env.readings s.clockReads) p a) (by simp [ViewOp.unmeasured])
  have edited := reconcile_edited returned
  rw [tellKad_view] at edited
  exact removed.trans (edited.mono fun _ => ViewOp.unmeasured_of_marks)

/-! ### Methods that leave the view -/

/-- Before it reconciles, `on_peer_connection_closed` edits the view once: the rest of its prefix
announces and switches modes. -/
theorem closedPrefix_view : (closedPrefix env p c).Ensures s fun _ t =>
    t.view = s.view.removeConnection (env.readings s.clockReads) p c :=
  closedPrefix_talk.mono fun _ _ talk => talk.view

/-- The same of `on_peer_connection_opened`. -/
theorem openedPrefix_view {endpoint : ConnectedPoint} :
    (openedPrefix env p c endpoint).Ensures s fun _ t =>
      t.view = s.view.addConnection (env.readings s.clockReads) p c endpoint :=
  openedPrefix_talk.mono fun _ _ talk => talk.view

/-- The relay update reads the view. -/
theorem updateRelayState_view (s : SavedNetwork) : s.updateRelayState.view = s.view :=
  (updateRelayState_spec s).view

/-- A request for a reservation reads the view. -/
theorem requestReservation_view (s : SavedNetwork) :
    (s.requestReservation env p).view = s.view := by
  unfold requestReservation
  split
  · split
    · rfl
    · split <;> rfl
  · rfl

/-! ## The parts of a turn -/

/-- The parts that are no operation of the view: a reconcile, and those that leave the view. -/
def Part.onlyMarks : Part → Bool
  | broadcast _ | listeningOn _ | switchOpened _ | switchClosed _ | reconcile _ | updateRelayState
  | register _ | requestReservation _ | natStatus _ => true
  | onAddAddress _ _ | onRemoveAddress _ _ | addConnection _ _ _ | removeConnection _ _
  | setProtocols _ _ | onPing _ _ _ => false

/-- Such a part marks failures at most. -/
theorem part_marks {part : Part} (only : part.onlyMarks = true) :
    (part.run env).Ensures s fun _ t => Edited ViewOp.marks s.view t.view := by
  cases part with
  | broadcast news => exact Talk.broadcast.mono fun _ _ talk => .of_eq talk.view
  | listeningOn a =>
    exact ensures_listeningOn (Talk.broadcast.mono fun _ _ talk => .of_eq talk.view)
  | switchOpened p | switchClosed p =>
    refine ensures_switches rfl .refl fun active => ?_
    exact Talk.setActiveMode.mono fun _ _ talk => .of_eq talk.view
  | reconcile p => exact Proc.ensures_attempt.mpr fun _ returned => reconcile_edited returned
  | updateRelayState => exact Proc.ensures_update.mpr (.of_eq (updateRelayState_view s))
  | requestReservation p => exact Proc.ensures_update.mpr (.of_eq (requestReservation_view s))
  | register relay => exact Proc.ensures_update.mpr .refl
  | natStatus new => exact Proc.ensures_update.mpr .refl
  | onAddAddress | onRemoveAddress | addConnection | removeConnection | setProtocols | onPing =>
    cases only

/-- So a handler that begins with an operation of the view makes that one, and marks failures. -/
theorem edited_of_first (op : ViewOp) {event : SwarmEvent} {part : Part} {rest : List Part}
    (handler : event.parts = part :: rest)
    (first : (part.run env).Ensures s fun _ t => t.view = s.view.apply op)
    (only : ∀ part ∈ rest, part.onlyMarks = true) :
    (onSwarmEvent env event).Ensures s fun _ t =>
      Edited ViewOp.marks (s.view.apply op) t.view := by
  rw [onSwarmEvent_parts, handler, Part.all_cons, Proc.ensures_bind]
  refine first.mono fun r t made => ?_
  cases r with
  | error e => exact .of_eq made
  | ok _ =>
    rw [Proc.exits_ok, ← made]
    exact .loop (K := fun s t : SavedNetwork => Edited ViewOp.marks s.view t.view) .trans
      (fun _ => .refl) fun part mem _ => part_marks (only part mem)

/-- **A connection closed.** -/
theorem closed_edited : (onSwarmEvent env (.connectionClosed p c)).Ensures s fun _ t =>
    Edited ViewOp.marks (s.view.removeConnection (env.readings s.clockReads) p c) t.view :=
  edited_of_first (.removeConnection (env.readings s.clockReads) p c) rfl
    (Proc.ensures_update.mpr rfl) (by simp [Part.onlyMarks])

/-- **A connection opened.** -/
theorem opened_edited {endpoint : ConnectedPoint} :
    (onSwarmEvent env (.connectionEstablished p c endpoint)).Ensures s fun _ t =>
      Edited ViewOp.marks (s.view.addConnection (env.readings s.clockReads) p c endpoint)
        t.view := by
  refine edited_of_first (.addConnection (env.readings s.clockReads) p c endpoint) rfl
    (Proc.ensures_update.mpr rfl) fun part mem => ?_
  rcases List.mem_append.mp mem with here | relay
  · simp only [List.mem_cons, List.not_mem_nil, or_false] at here
    rcases here with rfl | rfl | rfl | rfl <;> rfl
  · have closes := closes_of_ofRelay relay
    cases part with
    | reconcile | updateRelayState | register => rfl
    | _ => cases closes

/-! ## A turn -/

/-- The inputs that store a round-trip time. -/
def Input.isPing : Input → Bool
  | .event (.ping _ _ _) => true
  | _ => false

/-- Every part but a ping changes the view by operations that store no round-trip time. -/
theorem part_edited {part : Part} (other : ∀ p c result, part ≠ .onPing p c result) :
    (part.run env).Ensures s fun _ t => Edited ViewOp.unmeasured s.view t.view := by
  have marks : ∀ {v v'}, Edited ViewOp.marks v v' → Edited ViewOp.unmeasured v v' :=
    fun edited => edited.mono fun _ => ViewOp.unmeasured_of_marks
  have one : ∀ op : ViewOp, op.unmeasured → Edited ViewOp.unmeasured s.view (s.view.apply op) :=
    fun op => .one op
  cases part with
  | onAddAddress p a =>
    exact Proc.ensures_attempt.mpr fun _ returned => onAddAddress_edited returned
  | onRemoveAddress p a =>
    exact Proc.ensures_attempt.mpr fun _ returned => onRemoveAddress_edited returned
  | addConnection p c endpoint =>
    exact Proc.ensures_update.mpr
      (one (.addConnection _ p c endpoint) (by simp [ViewOp.unmeasured]))
  | removeConnection p c =>
    exact Proc.ensures_update.mpr (one (.removeConnection _ p c) (by simp [ViewOp.unmeasured]))
  | setProtocols p protocols =>
    exact Proc.ensures_update.mpr (one (.setProtocols p protocols) (by simp [ViewOp.unmeasured]))
  | onPing p c result => exact absurd rfl (other p c result)
  | _ => exact (part_marks rfl).mono fun _ _ => marks

/-- Every event but a ping: each of its parts edits the view without a round trip time. -/
theorem onSwarmEvent_edited {event : SwarmEvent} (other : (Input.event event).isPing = false) :
    (onSwarmEvent env event).Ensures s fun _ t => Edited ViewOp.unmeasured s.view t.view := by
  rw [onSwarmEvent_parts]
  refine .loop (K := fun s t : SavedNetwork => Edited ViewOp.unmeasured s.view t.view) .trans
    (fun _ => .refl) fun part mem _ => part_edited ?_
  rintro p c result rfl
  obtain rfl : event = _ := Input.event.inj (askedBy_of_mem mem)
  cases other

/-- No request writes to the view. `add_target_peer` and its counterpart write to the set of
targets. -/
theorem dispatchRpc_view {rpc : SavedNetworkRpc} (returned : dispatchRpc env rpc s = some s') :
    s'.view = s.view := by
  cases rpc with
  | setMdnsEnabled enabled => exact (Talk.setMdnsEnabled.of_exec returned).view
  | setKadEnabled enabled mode => exact (Talk.setKadEnabled.of_exec returned).view
  | kadFindPeer target => exact (Talk.kadFindPeer.of_exec returned).view
  | kadBootstrap => exact (Talk.kadBootstrap.of_exec returned).view
  | dial addr =>
    refine Proc.Ensures.of_exec (m := dial env addr) (P := fun t => t.view = s.view) ?_ returned
    rw [ensures_dial]
    exact ⟨fun _ => ⟨fun _ => rfl, fun _ => rfl⟩, fun _ => rfl⟩
  | addTargetPeer target | removeTargetPeer target =>
    cases returned
    rfl

/-- **A turn changes the view by operations that store no round-trip time**, unless it is a ping. -/
theorem step_edited {i : Input} (returned : s.step env i = some s') (other : i.isPing = false) :
    Edited ViewOp.unmeasured s.view s'.view := by
  cases i with
  | event event => exact (onSwarmEvent_edited other).of_exec returned
  | rpc rpc => exact .of_eq (dispatchRpc_view returned)

end Saved
