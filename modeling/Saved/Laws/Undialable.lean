import Saved.Laws.Destination

/-!
# Addresses that are not to be dialed

An IPv6 link-local address with no zone is not to be dialed, and `on_add_address` turns it down at
the door. There is a second door: the remote address of a connection is stored as it is, and it
stays when the connection closes. So no reconcile dials such an address while no connection comes
over one (`undialable_not_dialed`), and the close of the only connection of a peer dials the address
it came from (`undialable_dialed`).
-/

namespace Saved

open Saved.Lib SavedNetwork

variable {i : Input}

/-- The remote address of a connection the input opens may be dialed. -/
def Input.dialableRemote : Input → Bool
  | .event (.connectionEstablished _ _ endpoint) => !shouldSkipForDial endpoint.remote
  | _ => true

/-- What is brought is offered and not skipped, or the remote address of a connection. -/
theorem Input.brings_dialable (dialable : i.dialableRemote = true) :
    ∀ entry ∈ i.brings, shouldSkipForDial entry.2 = false := by
  intro entry mem
  have offered (mem : entry ∈ i.offers.filter fun entry => !shouldSkipForDial entry.2) :
      shouldSkipForDial entry.2 = false := by
    simpa using (List.mem_filter.mp mem).2
  cases i with
  | rpc rpc => exact offered mem
  | event event =>
    cases event with
    | connectionEstablished q c endpoint =>
      obtain rfl := List.mem_singleton.mp mem
      simpa [Input.dialableRemote] using dialable
    | _ => exact offered mem

/-- **No reconcile dials an address that is not to be dialed**, in any turn of a run or in the next,
when every connection comes over an address that may be dialed. -/
theorem undialable_not_dialed (env : Env) (me : PeerId) (max : Nat) {h : List Input}
    {s t : SavedNetwork} {i : Input} {p : PeerId} {a : Multiaddr}
    (run : Run (SavedNetwork.step env) (fun _ _ i => i.dialableRemote = true) (.start me max) h s)
    (dialable : i.dialableRemote = true) (read : .read p t ∈ s.moments env i)
    (dials : t.dialTarget p = some a) : shouldSkipForDial a = false :=
  dialTarget_of_brings (P := fun _ a => shouldSkipForDial a = false)
    (fun _ _ _ => Input.brings_dialable) run (Input.brings_dialable dialable) read dials

/-- The peer and the address that the read of a reconcile dials. -/
def Moment.readDial : Moment → Option (PeerId × Multiaddr)
  | .read p t => (t.dialTarget p).map fun a => (p, a)
  | _ => none

/-- A read that dials, taken apart. -/
theorem Moment.readDial_eq_some {m : Moment} {entry : PeerId × Multiaddr}
    (dials : m.readDial = some entry) :
    ∃ t, m = .read entry.1 t ∧ t.dialTarget entry.1 = some entry.2 := by
  cases m with
  | read p t =>
    obtain ⟨a, target, rfl⟩ := Option.map_eq_some_iff.mp dials
    exact ⟨t, rfl, target⟩
  | op | request | settled => cases dials

/-- The peer 1 connects from an address. -/
def connectsFrom (remote : Multiaddr) : Input :=
  .event (.connectionEstablished ⟨[1]⟩ ⟨0⟩ (.listener (lanAddr 0) remote))

/-- It connected from an address in the private network, and is dialed there. -/
theorem undialable_not_dialed_lan : ∃ s t, Run (SavedNetwork.step .calm)
      (fun _ _ i => i.dialableRemote = true) (.start ⟨[0]⟩ 4) [connectsFrom (lanAddr 1)] s ∧
    .read ⟨[1]⟩ t ∈ s.moments .calm (.event (.connectionClosed ⟨[1]⟩ ⟨0⟩)) ∧
    t.dialTarget ⟨[1]⟩ = some (lanAddr 1) ∧ shouldSkipForDial (lanAddr 1) = false := by
  obtain ⟨s, run, found⟩ : ∃ s, Run (SavedNetwork.step .calm)
      (fun _ _ i => i.dialableRemote = true) (.start ⟨[0]⟩ 4) [connectsFrom (lanAddr 1)] s ∧
      ((s.moments .calm (.event (.connectionClosed ⟨[1]⟩ ⟨0⟩))).any fun m =>
        decide (m.readDial = some (⟨[1]⟩, lanAddr 1))) = true :=
    Run.exists_of_replay (by decide)
  obtain ⟨m, mem, dials⟩ := List.any_eq_true.mp found
  obtain ⟨t, rfl, target⟩ := Moment.readDial_eq_some (of_decide_eq_true dials)
  exact ⟨s, t, run, mem, target, undialable_not_dialed .calm ⟨[0]⟩ 4 run (by decide) mem target⟩

/-- The address fe80::1 with no zone. -/
def linkLocalAddr : Multiaddr :=
  ⟨[.ip6 ⟨[0xfe, 0x80, 0, 0, 0, 0, 0, 0, 0, 0, 0, 0, 0, 0, 0, 1], rfl⟩, .tcp 4001]⟩

/-- **A peer that connected from a link-local address is dialed there** when its connection
closes. -/
theorem undialable_dialed : ¬ ∀ (env : Env) (me : PeerId) (max : Nat) (h : List Input)
    (s t : SavedNetwork) (i : Input) (p : PeerId) (a : Multiaddr),
    Run (SavedNetwork.step env) (fun h _ i => i.genuine h = true) (.start me max) h s →
    i.genuine h = true → .read p t ∈ s.moments env i → t.dialTarget p = some a →
    shouldSkipForDial a = false := by
  intro always
  obtain ⟨s, run, found⟩ : ∃ s, Run (SavedNetwork.step .calm) (fun h _ i => i.genuine h = true)
      (.start ⟨[0]⟩ 4) [connectsFrom linkLocalAddr] s ∧
      ((s.moments .calm (.event (.connectionClosed ⟨[1]⟩ ⟨0⟩))).any fun m =>
        m.readDial.any fun entry => shouldSkipForDial entry.2) = true :=
    Run.exists_of_replay (by decide)
  obtain ⟨m, mem, skipped⟩ := List.any_eq_true.mp found
  obtain ⟨entry, dials, skip⟩ := (Option.any_eq_true _ _).mp skipped
  obtain ⟨t, rfl, target⟩ := Moment.readDial_eq_some dials
  have dialable := always _ _ _ _ s t _ entry.1 entry.2 run (by decide) mem target
  rw [skip] at dialable
  cases dialable

end Saved
