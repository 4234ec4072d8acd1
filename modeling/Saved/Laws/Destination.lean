import Saved.Laws.TurnTraces

/-!
# Where a dial goes

The view keeps an address as it was observed, and a reconcile dials the best one as it is. So what
a dial of a peer is bound to is what the address said when it came: `Input.brings` lists the
addresses an input brings for a peer, from each of the five sources, and `dials_bound` says that
every dial carries its peer as its destination when every address did. It is a case of
`dialTarget_of_brings`: what a reconcile dials satisfies what every address satisfies that the run
brings. The request of a handle is checked before it is dialed; an address of the view is not
(`unbound_dial`).
-/

namespace Saved

open Saved.Lib SavedNetwork

variable {env : Env} {since : Nat} {s t : SavedNetwork} {i : Input} {p q : PeerId} {a : Multiaddr}
  {op : ViewOp} {l : List Moment} {entry : PeerId × Multiaddr}

/-- The peer that the last `/p2p` component of an address names. -/
def Multiaddr.destination (addr : Multiaddr) : Option PeerId :=
  (addr.iter.filterMap fun p => match p with | .p2p peerId => some peerId | _ => none).getLast?

/-! ## The addresses an input brings -/

/-- The address that an operation opens an entry for. -/
def ViewOp.opens : ViewOp → Option (PeerId × Multiaddr)
  | addAddress _ p a => some (p, a)
  | addConnection _ p _ endpoint => some (p, endpoint.remote)
  | removeAddress _ _ _ | removeConnection _ _ _ | setProtocols _ _ | markFailure _ _ _ _
  | setRtt _ _ => none

/-- The operations that take an address or a connection out. -/
def ViewOp.removes : ViewOp → Prop
  | removeAddress _ _ _ | removeConnection _ _ _ => True
  | addAddress _ _ _ | addConnection _ _ _ _ | setProtocols _ _ | markFailure _ _ _ _
  | setRtt _ _ => False

/-- **The addresses an input brings**: those it offers that are not skipped, and the remote address
of a connection. -/
def Input.brings : Input → List (PeerId × Multiaddr)
  | .event (.connectionEstablished p _ endpoint) => [(p, endpoint.remote)]
  | i => i.offers.filter fun entry => !shouldSkipForDial entry.2

/-- **An operation makes known at most the address it opens an entry for.** -/
theorem mem_slots_apply {view : NetworkView} (wf : view.WellFormed)
    (known : a ∈ ((view.apply op).registers q).slots) :
    a ∈ (view.registers q).slots ∨ op.opens = some (q, a) := by
  rw [(NetworkView.apply_registers wf op).2] at known
  cases op with
  | setProtocols | markFailure | setRtt => exact .inl known
  | addAddress _ p b | addConnection _ p c e =>
    rw [Book.apply, Function.update_apply] at known
    split at known
    · next here =>
      subst here
      rcases known with rfl | old
      · exact .inr rfl
      · exact .inl old
    · exact .inl known
  | removeAddress _ p b =>
    rw [Book.apply, Function.update_apply] at known
    split at known
    · next here => exact .inl (here ▸ known.2)
    · exact .inl known
  | removeConnection _ p c =>
    rw [Book.apply, Function.update_apply] at known
    split at known
    · next here => exact .inl (here ▸ known)
    · exact .inl known

/-- **A connection that an operation leaves in a book was there before, on the same address, or is
the one it adds.** -/
theorem Book.slotOf_apply {book : Book} {c : ConnectionId}
    (stands : (book.apply op q).slotOf c = some a) : (book q).slotOf c = some a ∨
      ∃ now endpoint, op = .addConnection now q c endpoint ∧ endpoint.remote = a := by
  cases op with
  | setProtocols | markFailure | setRtt => exact .inl stands
  | addAddress now p b =>
    rw [Book.apply, Function.update_apply] at stands
    split at stands
    · next here => exact .inl (here ▸ stands)
    · exact .inl stands
  | removeAddress now p b =>
    rw [Book.apply, Function.update_apply] at stands
    split at stands
    · next here => exact .inl (here ▸ (Register.slotOf_erase.mp stands).2)
    · exact .inl stands
  | removeConnection now p d =>
    rw [Book.apply, Function.update_apply] at stands
    split at stands
    · next here => exact .inl (here ▸ (Register.slotOf_release.mp stands).2)
    · exact .inl stands
  | addConnection now p d endpoint =>
    rw [Book.apply, Function.update_apply] at stands
    split at stands
    · next here =>
      subst here
      rcases Register.slotOf_assign.mp stands with ⟨rfl, rfl⟩ | ⟨_, old⟩
      · exact .inr ⟨now, endpoint, rfl, rfl⟩
      · exact .inl old
    · exact .inl stands

/-! ## The operations of a turn -/

/-- A reconcile makes reads only. -/
theorem mem_reads {depth : Nat} {m : Moment} (mem : m ∈ reads env p depth s) :
    ∃ t, m = .read p t := by
  induction depth generalizing s with
  | zero => cases mem
  | succ depth ih =>
    unfold reads at mem
    rcases List.mem_cons.mp mem with same | later
    · exact ⟨s, same⟩
    · split at later
      · cases later
      · exact ih later

/-- What a reconciliation reads is no operation on the view. -/
theorem op_not_mem_reads {depth : Nat} : .op op ∉ reads env p depth s := by
  intro mem
  obtain ⟨t, same⟩ := mem_reads mem
  cases same

/-- A moment of a loop is a moment of one of its rounds, in the state of that round. -/
theorem mem_loopMoments {ι : Type} {round : SavedNetwork → ι → Option SavedNetwork}
    {moments : SavedNetwork → ι → List Moment} {list : List ι} {m : Moment}
    (mem : m ∈ loopMoments round moments list s) : ∃ i ∈ list, ∃ t, m ∈ moments t i := by
  induction list generalizing s with
  | nil => cases mem
  | cons i list ih =>
    unfold loopMoments at mem
    rcases List.mem_append.mp mem with here | later
    · exact ⟨i, List.mem_cons_self, s, here⟩
    · cases returned : round s i with
      | none =>
        rw [returned] at later
        cases later
      | some t =>
        rw [returned] at later
        obtain ⟨j, hj, found⟩ := ih later
        exact ⟨j, List.mem_cons_of_mem i hj, found⟩

/-- The operation of `on_add_address` adds the address it was given, which passed the filter. -/
theorem op_of_addMoments (mem : .op op ∈ addMoments env s entry) :
    op.opens = some entry ∧ shouldSkipForDial entry.2 = false := by
  unfold addMoments at mem
  split at mem
  · cases mem
  · next kept =>
    rcases List.mem_cons.mp mem with same | later
    · cases same
      exact ⟨rfl, Bool.eq_false_iff.mpr kept⟩
    · split at later
      · exact absurd later op_not_mem_reads
      · cases later

/-- The same of the loop, whose filter is part of the source's iterator. -/
theorem op_of_addAllMoments {list : List (PeerId × Multiaddr)}
    (mem : .op op ∈ addAllMoments env list s) :
    ∃ entry ∈ list.filter fun entry => !shouldSkipForDial entry.2, op.opens = some entry := by
  obtain ⟨e, he, t, found⟩ := mem_loopMoments mem
  obtain ⟨same, kept⟩ := op_of_addMoments found
  exact ⟨e, List.mem_filter.mpr ⟨he, by rw [kept]; rfl⟩, same⟩

/-- A connection handler makes one operation of its own. What the reconciliation does to the view is
kept among the reads. -/
theorem op_of_handlerMoments {cause : ViewOp} {prefix' : NetM Unit}
    (mem : .op op ∈ handlerMoments env cause prefix' s) : op = cause := by
  rcases List.mem_cons.mp mem with same | later
  · cases same
    rfl
  · cases reached : prefix'.execOk s with
    | none =>
      rw [reached] at later
      cases later
    | some t =>
      rw [reached] at later
      exact absurd later op_not_mem_reads

/-- **What the operations of a turn are**: each opens an entry for an address its input brings, or
takes an address or a connection out. -/
theorem op_of_moments (mem : .op op ∈ s.moments env i) :
    (∃ entry ∈ i.brings, op.opens = some entry) ∨ op.removes := by
  cases i with
  | rpc rpc =>
    cases rpc with
    | dial addr =>
      unfold SavedNetwork.moments at mem
      simp only at mem
      split at mem <;> simp at mem
    | _ => cases mem
  | event event =>
    cases event with
    | mdnsDiscovered list => exact .inl (op_of_addAllMoments mem)
    | mdnsExpired list =>
      obtain ⟨e, _, t, found⟩ := mem_loopMoments mem
      -- the first moment of an expiry is its removal; the rest are reads
      rcases List.mem_cons.mp found with same | later
      · cases same
        exact .inr trivial
      · exact absurd later op_not_mem_reads
    | connectionEstablished p c endpoint =>
      obtain rfl := op_of_handlerMoments mem
      exact .inl ⟨_, List.mem_singleton.mpr rfl, rfl⟩
    | connectionClosed p c =>
      obtain rfl := op_of_handlerMoments mem
      exact .inr trivial
    | newExternalAddrOfPeer p a =>
      obtain ⟨same, kept⟩ := op_of_addMoments mem
      exact .inl ⟨_, List.mem_filter.mpr ⟨List.mem_singleton.mpr rfl, by rw [kept]; rfl⟩, same⟩
    | kadGetClosestPeers result =>
      cases result with
      | none => cases mem
      | some peers =>
        obtain ⟨peer, hpeer, t, found⟩ := mem_loopMoments mem
        unfold kadMoments at found
        -- without a receiver the loop ends before the addresses of this peer
        cases sent : (broadcast env (.kadFoundPeer peer.1 peer.2)).execOk t with
        | none =>
          rw [sent] at found
          cases found
        | some u =>
          rw [sent] at found
          obtain ⟨entry, member, same⟩ := op_of_addAllMoments found
          obtain ⟨pair, kept⟩ := List.mem_filter.mp member
          exact .inl ⟨entry, List.mem_filter.mpr ⟨List.mem_flatMap.mpr ⟨peer, hpeer, pair⟩, kept⟩,
            same⟩
    | identifyReceived p protocols listenAddrs => exact .inl (op_of_addAllMoments mem)
    | _ => cases mem

/-- **A turn opens entries for the addresses its input brings**, and for no others. -/
theorem opens_of_moments (mem : .op op ∈ s.moments env i) (opens : op.opens = some entry) :
    entry ∈ i.brings := by
  rcases op_of_moments mem with ⟨e, brought, same⟩ | removes
  · cases opens.symm.trans same
    exact brought
  · cases op with
    | removeAddress | removeConnection => cases opens
    | _ => cases removes

/-! ## What every known address satisfies -/

/-- **Every known address satisfies a predicate** of its peer and itself. -/
def AllKnown (P : PeerId → Multiaddr → Prop) (view : NetworkView) : Prop :=
  view.WellFormed ∧ ∀ p, ∀ a ∈ (view.registers p).slots, P p a

variable {P : PeerId → Multiaddr → Prop} {view view' : NetworkView}

/-- The registers are read off the vectors. -/
theorem registers_congr (same : view'.addressesOf = view.addressesOf) :
    view'.registers = view.registers := funext fun p => congrArg register (congrFun same p)

/-- A promise about every known address is a promise about the vectors. -/
theorem AllKnown.congr (same : view'.addressesOf = view.addressesOf) (known : AllKnown P view) :
    AllKnown P view' := by
  refine ⟨NetworkView.wellFormed_congr same known.1, ?_⟩
  rw [registers_congr same]
  exact known.2

/-- An operation keeps it when the entry it opens satisfies the predicate. -/
theorem AllKnown.apply (known : AllKnown P view)
    (opens : ∀ entry, op.opens = some entry → P entry.1 entry.2) : AllKnown P (view.apply op) := by
  refine ⟨(NetworkView.apply_registers known.1 op).1, fun q a here => ?_⟩
  rcases mem_slots_apply known.1 here with old | opened
  · exact known.2 q a old
  · exact opens _ opened

/-- **A turn keeps it**, when its input brings such addresses only. -/
theorem allKnown_turn (trace : Trace (Happens env since) s l t)
    (part : ∀ m ∈ l, m ∈ s.moments env i) (known : AllKnown P s.view)
    (brings : ∀ entry ∈ i.brings, P entry.1 entry.2) : AllKnown P t.view :=
  view_trace (I := AllKnown P) (fun _ _ => AllKnown.congr)
    (fun _ _ _ _ _ _ known => known.apply (by simp [ViewOp.opens]))
    (fun _ _ mem known => known.apply fun entry opens =>
      brings entry (opens_of_moments (part _ mem) opens)) trace known

/-- The invariant of every run whose inputs bring such addresses only. -/
theorem allKnown_run {ok : List Input → SavedNetwork → Input → Prop} {me : PeerId} {max : Nat}
    {h : List Input} (brings : ∀ h s i, ok h s i → ∀ entry ∈ i.brings, P entry.1 entry.2)
    (run : Run (SavedNetwork.step env) ok (.start me max) h s) : AllKnown P s.view :=
  view_run (I := AllKnown P) (fun _ _ => AllKnown.congr)
    (fun _ _ _ _ _ _ known => known.apply (by simp [ViewOp.opens]))
    ⟨NetworkView.wellFormed_empty, fun _ _ known => absurd known List.not_mem_nil⟩
    (fun h s i meets _ _ mem known => known.apply fun entry opens =>
      brings h s i meets entry (opens_of_moments mem opens)) run

/-- **What a reconcile dials was known**: it satisfies what every address satisfies that the run
and the turn bring. -/
theorem dialTarget_of_brings {ok : List Input → SavedNetwork → Input → Prop} {me : PeerId}
    {max : Nat} {h : List Input} (all : ∀ h s i, ok h s i → ∀ entry ∈ i.brings, P entry.1 entry.2)
    (run : Run (SavedNetwork.step env) ok (.start me max) h s)
    (brings : ∀ entry ∈ i.brings, P entry.1 entry.2) (read : .read p t ∈ s.moments env i)
    (dials : t.dialTarget p = some a) : P p a := by
  obtain ⟨before, part, reached, _⟩ := read_of_turn read
  have known := allKnown_turn reached part (allKnown_run all run) brings
  obtain ⟨stored, best, _⟩ := dialTarget_eq_some.mp dials
  exact known.2 p a (best ▸ bestAddr_mem stored)

/-! ## Bound addresses -/

/-- Every address an input brings for a peer carries that peer as its destination. -/
def Input.bound (i : Input) : Bool :=
  i.brings.all fun entry => decide (entry.2.destination = some entry.1)

/-- `bound` is a test of every address that the input brings. -/
theorem Input.bound_iff : i.bound = true ↔
    ∀ entry ∈ i.brings, entry.2.destination = some entry.1 := by
  simp [Input.bound]

/-- **Every dial is bound to its peer in every run that brings bound addresses only**: whatever a
reconcile of a peer dials, in any turn of the run or in the next, carries that peer as its
destination. -/
theorem dials_bound (env : Env) (me : PeerId) (max : Nat) {h : List Input} {s t : SavedNetwork}
    {i : Input} {p : PeerId} {a : Multiaddr}
    (run : Run (SavedNetwork.step env) (fun _ _ i => i.bound = true) (.start me max) h s)
    (brings : i.bound = true) (read : .read p t ∈ s.moments env i)
    (dials : t.dialTarget p = some a) : a.destination = some p :=
  dialTarget_of_brings (P := fun p a => a.destination = some p)
    (fun _ _ _ => Input.bound_iff.mp) run (Input.bound_iff.mp brings) read dials

/-- An address in a private network that carries its peer. -/
def boundAddr (host : Byte) (p : PeerId) : Multiaddr := (lanAddr host).withProtocol (.p2p p)

/-- A peer found by mDNS, whose address carries it. -/
theorem dials_bound_found : ∃ t, .read ⟨[1]⟩ t ∈ (SavedNetwork.start ⟨[0]⟩ 4).moments .calm
      (.event (.mdnsDiscovered [(⟨[1]⟩, boundAddr 1 ⟨[1]⟩)])) ∧
    t.dialTarget ⟨[1]⟩ = some (boundAddr 1 ⟨[1]⟩) ∧
    (boundAddr 1 ⟨[1]⟩).destination = some ⟨[1]⟩ := by
  let learned := (SavedNetwork.start ⟨[0]⟩ 4).after (.addAddress .zero ⟨[1]⟩ (boundAddr 1 ⟨[1]⟩))
  let t := learned.tellKad (.kadAddAddress ⟨[1]⟩ (boundAddr 1 ⟨[1]⟩))
  have read : .read ⟨[1]⟩ t ∈ (SavedNetwork.start ⟨[0]⟩ 4).moments .calm
      (.event (.mdnsDiscovered [(⟨[1]⟩, boundAddr 1 ⟨[1]⟩)])) :=
    List.mem_cons_of_mem _ List.mem_cons_self
  have dials : t.dialTarget ⟨[1]⟩ = some (boundAddr 1 ⟨[1]⟩) := by decide
  exact ⟨t, read, dials, dials_bound .calm ⟨[0]⟩ 4 .start (by decide) read dials⟩

/-- **A dial that is bound to nobody**: an address without `/p2p`, as identify and the external
addresses of a peer bring them, is dialed as it is. -/
theorem unbound_dial : ¬ ∀ (env : Env) (me : PeerId) (max : Nat) (h : List Input)
    (s t : SavedNetwork) (i : Input) (p : PeerId) (a : Multiaddr),
    Run (SavedNetwork.step env) (fun _ _ _ => True) (.start me max) h s →
    .read p t ∈ s.moments env i → t.dialTarget p = some a → a.destination = some p := by
  intro always
  let t := ((SavedNetwork.start ⟨[0]⟩ 4).after (.addAddress .zero ⟨[1]⟩ (lanAddr 1))).tellKad
    (.kadAddAddress ⟨[1]⟩ (lanAddr 1))
  have read : .read ⟨[1]⟩ t ∈ (SavedNetwork.start ⟨[0]⟩ 4).moments .calm
      (.event (.newExternalAddrOfPeer ⟨[1]⟩ (lanAddr 1))) :=
    List.mem_cons_of_mem _ List.mem_cons_self
  have bound := always .calm ⟨[0]⟩ 4 [] _ t _ ⟨[1]⟩ (lanAddr 1) .start read (by decide)
  cases bound

end Saved
