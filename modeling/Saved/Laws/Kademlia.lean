import Saved.Lib.Mirror
import Saved.Laws.Deeds
import Saved.Laws.Settings

/-!
# What Kademlia is told

A node passes the addresses that it learns and those that expire on to Kademlia, when that is on.
When it is turned off what it was told is gone, and when it is turned on again it starts from
nothing. So what Kademlia has from the node is a copy of a part of the view: the addresses that the
node learned, otherwise than by a connection, while Kademlia was on. `kad_mirrors` says that it is
exactly this, turn by turn; in particular Kademlia never has from the node an address that the node
has forgotten.

What Kademlia finds by itself is its own and not part of this.
-/

namespace Saved

open Saved.Lib SavedNetwork

/-- An address of a peer. -/
abbrev PeerAddr := PeerId × Multiaddr

/-- What a call tells Kademlia of an address. -/
def Call.notice : Call → Option (Notice PeerAddr)
  | kadAddAddress p a => some (.came (p, a))
  | kadRemoveAddress p a => some (.went (p, a))
  | _ => none

/-- What a list of calls tells it. -/
def notices (calls : List Call) : List (Notice PeerAddr) := calls.filterMap Call.notice

/-- The addresses that a view has. -/
def NetworkView.known (view : NetworkView) : Set PeerAddr :=
  {entry | entry.2 ∈ (view.registers entry.1).slots}

namespace SavedNetwork

/-- Kademlia is on. -/
def kadOn (s : SavedNetwork) : Bool := s.swarm.kad.isSome

/-- The calls that have been made since another state. -/
def callsSince (s t : SavedNetwork) : List Call := t.swarm.calls.drop s.swarm.calls.length

end SavedNetwork

/-- **A node, with what it has told its Kademlia**: the addresses added and not removed. -/
structure Routed where
  node : SavedNetwork
  table : List PeerAddr

namespace Routed

def start (localPeerId : PeerId) (maxRelays : Nat) : Routed := ⟨.start localPeerId maxRelays, []⟩

/-- What a turn leaves of the table. A turn that turns Kademlia on or off tells it nothing else. -/
def tableAfter (r : Routed) (t : SavedNetwork) : List PeerAddr :=
  if r.node.kadOn && t.kadOn then told r.table (notices (r.node.callsSince t)) else []

/-- **One turn.** -/
def step (env : Env) (r : Routed) (i : Input) : Option Routed :=
  (r.node.step env i).map fun t => ⟨t, r.tableAfter t⟩

end Routed

/-- A connection is opened. -/
def Input.opens : Input → Bool
  | .event (.connectionEstablished _ _ _) => true
  | _ => false

variable {env : Env} {s s' t u : SavedNetwork} {i : Input} {p : PeerId} {a : Multiaddr}
  {may : SavedNetwork → Deed → Prop} {entry : PeerAddr}

/-! ## Deeds that tell nothing -/

/-- An operation other than the expiry of an address keeps the addresses. -/
theorem slots_apply_mono {view : NetworkView} {op : ViewOp} (wf : view.WellFormed)
    (keeps : ∀ now p a, op ≠ .removeAddress now p a)
    (known : a ∈ (view.registers p).slots) : a ∈ ((view.apply op).registers p).slots := by
  rw [(NetworkView.apply_registers wf op).2]
  cases op with
  | setProtocols | markFailure | setRtt => exact known
  | removeAddress now q b => exact absurd rfl (keeps now q b)
  | addAddress _ q b | addConnection _ q c e =>
    rw [Book.apply, Function.update_apply]
    split
    · next here => exact here ▸ .inr known
    · exact known
  | removeConnection _ q c =>
    rw [Book.apply, Function.update_apply]
    split
    · next here => exact here ▸ known
    · exact known

/-- **What deeds do to the addresses**, when none of them is about Kademlia or an expiry: those of a
set may come. -/
theorem Within.knows (brings : Set PeerAddr) (within : Within may s t) (wf : s.view.WellFormed)
    (silent : ∀ s call, may s (.call call) → call.notice = none)
    (keeps : ∀ s now p a, ¬ may s (.op (.removeAddress now p a)))
    (opens : ∀ s op entry, may s (.op op) → op.opens = some entry → entry ∈ brings) :
    t.view.WellFormed ∧ Makes (fun call => call.notice = none) s t ∧
      s.view.known ⊆ t.view.known ∧ ∀ e ∈ t.view.known, e ∈ s.view.known ∨ e ∈ brings := by
  refine within.invariant (I := fun t => t.view.WellFormed ∧
    Makes (fun call => call.notice = none) s t ∧ s.view.known ⊆ t.view.known ∧
      ∀ e ∈ t.view.known, e ∈ s.view.known ∨ e ∈ brings) ?_ ?_ ?_ ?_
  · intro t u idle before
    obtain ⟨wf, ⟨new, calls, all⟩, grows, few⟩ := before
    refine ⟨idle.view ▸ wf, ⟨new, idle.calls.trans calls, all⟩, ?_, ?_⟩
    · rw [idle.view]
      exact grows
    · rw [idle.view]
      exact few
  · intro t op allowed before
    obtain ⟨wf, made, grows, few⟩ := before
    have keep : ∀ now p a, op ≠ .removeAddress now p a := by
      rintro now p a rfl
      exact keeps t now p a allowed
    refine ⟨(NetworkView.apply_registers wf op).1, made.trans (.of_eq rfl), ?_, fun e here => ?_⟩
    · exact fun e old => slots_apply_mono wf keep (grows old)
    · rcases mem_slots_apply wf here with old | new
      · exact few e old
      · exact .inr (opens t op _ allowed new)
  · intro t call allowed before
    obtain ⟨wf, made, grows, few⟩ := before
    refine ⟨wf, made.trans (.tell fun other told => ?_), grows, few⟩
    rw [List.mem_singleton.mp told]
    exact silent t call allowed
  · exact ⟨wf, .of_eq rfl, fun _ => id, fun _ => .inl⟩

/-! ## Changes that Kademlia is told of -/

/-- **Kademlia is told of a change of the view.** -/
structure Tells (s t : SavedNetwork) : Prop where
  wf : t.view.WellFormed
  kad : t.swarm.kad = s.swarm.kad
  told : ∃ new, t.swarm.calls = s.swarm.calls ++ new ∧
    (s.kadOn = true → Mirrors s.view.known t.view.known (notices new))

/-- Kademlia is told, and the addresses are more than before. -/
def Learns (s t : SavedNetwork) : Prop :=
  s.view.WellFormed → Tells s t ∧ s.view.known ⊆ t.view.known

/-- Kademlia is told, and the addresses are fewer than before. -/
def Forgets (s t : SavedNetwork) : Prop :=
  s.view.WellFormed → Tells s t ∧ t.view.known ⊆ s.view.known

/-- Two changes that are told of, one after the other. The mirror of both is exact provided that no
address leaves in the first and comes back in the second, which is what `stays` says. -/
theorem Tells.trans (first : Tells s t) (second : Tells t u)
    (stays : ∀ e ∈ s.view.known, e ∈ u.view.known → e ∈ t.view.known) : Tells s u := by
  obtain ⟨new, calls, mirrors⟩ := first.told
  obtain ⟨new', calls', mirrors'⟩ := second.told
  refine ⟨second.wf, second.kad.trans first.kad, new ++ new', ?_, fun on => ?_⟩
  · rw [calls', calls, List.append_assoc]
  · have still : t.kadOn = true := by
      rw [kadOn, first.kad]
      exact on
    rw [notices, List.filterMap_append]
    exact (mirrors on).trans (mirrors' still) stays

/-- A change that keeps the addresses and tells nothing. -/
theorem Tells.aside (wf : t.view.WellFormed) (kad : t.swarm.kad = s.swarm.kad)
    (known : t.view.known = s.view.known) (makes : Makes (fun call => call.notice = none) s t) :
    Tells s t := by
  obtain ⟨new, calls, silent⟩ := makes
  refine ⟨wf, kad, new, calls, fun _ => ?_⟩
  rw [known, notices, List.filterMap_eq_nil_iff.mpr silent]
  exact .refl _

/-- Where addresses are only learned, nothing that was known is missed in between. -/
theorem Learns.trans (first : Learns s t) (second : Learns t u) : Learns s u := by
  intro wf
  obtain ⟨tells, grows⟩ := first wf
  obtain ⟨tells', grows'⟩ := second tells.wf
  exact ⟨tells.trans tells' fun e old _ => grows old, grows.trans grows'⟩

/-- Where addresses are only forgotten, nothing that is known at the end was missing in between. -/
theorem Forgets.trans (first : Forgets s t) (second : Forgets t u) : Forgets s u := by
  intro wf
  obtain ⟨tells, shrinks⟩ := first wf
  obtain ⟨tells', shrinks'⟩ := second tells.wf
  exact ⟨tells.trans tells' fun e _ last => shrinks' last, shrinks'.trans shrinks⟩

/-- Deeds that touch neither Kademlia nor the addresses. -/
theorem Within.aside (within : Within may s t) (wf : s.view.WellFormed)
    (kad : t.swarm.kad = s.swarm.kad)
    (silent : ∀ s call, may s (.call call) → call.notice = none)
    (keeps : ∀ s now p a, ¬ may s (.op (.removeAddress now p a)))
    (opens : ∀ s op entry, may s (.op op) → op.opens ≠ some entry) :
    Tells s t ∧ t.view.known = s.view.known := by
  obtain ⟨wf', makes, grows, few⟩ := within.knows ∅ wf silent keeps
    fun s op entry allowed opened => absurd opened (opens s op entry allowed)
  have same : t.view.known = s.view.known :=
    Set.Subset.antisymm (fun e here => (few e here).resolve_right id) grows
  exact ⟨.aside wf' kad same makes, same⟩

/-- A step that stands aside learns nothing, which is a way of learning. -/
theorem Learns.of_aside (aside : s.view.WellFormed → Tells s t ∧ t.view.known = s.view.known) :
    Learns s t := fun wf => (aside wf).imp_right fun same => same.ge

/-- Nothing done is nothing learned. -/
theorem Learns.refl (s : SavedNetwork) : Learns s s := fun wf =>
  ⟨.aside wf rfl rfl (.of_eq rfl), fun _ => id⟩

end Saved
