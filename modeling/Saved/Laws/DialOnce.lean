import Saved.Laws.Plan

/-!
# No duplicate dial

An orderly turn is clear: no read of it dials an address in flight (`clear_turn`). The rounds of the
handlers' loops are operations of one plan, with `Underway` between the rounds. What a reconcile
turns to is the first of a vector, so the plan speaks of the code only as long as the vectors it
reads are sorted; they are when no cooldown ends in the middle of a resort (`Recorded.steady`). From
the turns, `no_duplicate_dial` is the law of the runs.
-/

namespace Saved

open Saved.Lib SavedNetwork

variable {env : Env} {me : PeerId} {max : Nat} {h : List Turn} {r : Recorded} {turn : Turn}
  {s : SavedNetwork} {flight : Flight} {i : Input} {op : ViewOp} {entry : PeerId × Multiaddr}
  {list more : List (PeerId × Multiaddr)} {now : Readings}

/-- **A loop of rounds that keep an invariant of the rounds to come is clear.** -/
theorem clear_loop {ι : Type} {I : SavedNetwork → Flight → List ι → Prop}
    {round : SavedNetwork → ι → Option SavedNetwork} {moments : SavedNetwork → ι → List Moment}
    (each : ∀ s flight i is, I s flight (i :: is) → AllOrdered (moments s i) →
      Clear env flight (moments s i) ∧
        ∀ s', round s i = some s' → I s' (flight.run env (moments s i)) is)
    {list more : List ι} {s : SavedNetwork} {flight : Flight} (init : I s flight (list ++ more))
    (ordered : AllOrdered (loopMoments round moments list s)) :
    Clear env flight (loopMoments round moments list s) ∧
      ∀ s', list.foldlM round s = some s' →
        I s' (flight.run env (loopMoments round moments list s)) more := by
  induction list generalizing s flight with
  | nil =>
    refine ⟨trivial, fun s' returned => ?_⟩
    cases returned
    exact init
  | cons i list ih =>
    unfold loopMoments at ordered ⊢
    obtain ⟨first, next⟩ := each s flight i (list ++ more) init
      (ordered.subset (List.subset_append_left _ _))
    cases returned : round s i with
    | none =>
      refine ⟨by simpa using first, fun s' impossible => ?_⟩
      obtain ⟨t, same, _⟩ := Option.bind_eq_some_iff.mp impossible
      cases returned.symm.trans same
    | some t =>
      rw [returned] at ordered
      obtain ⟨rest, ends⟩ := ih (next t returned) (ordered.subset (List.subset_append_right _ _))
      refine ⟨clear_append.mpr ⟨first, rest⟩, fun s' whole => ?_⟩
      obtain ⟨t', same, rest'⟩ := Option.bind_eq_some_iff.mp whole
      cases returned.symm.trans same
      show I s' (List.foldl _ _ (_ ++ _)) more
      rw [List.foldl_append]
      exact ends s' rest'

/-- The whole of a loop. -/
theorem clear_whole {ι : Type} {I : SavedNetwork → Flight → List ι → Prop}
    {round : SavedNetwork → ι → Option SavedNetwork} {moments : SavedNetwork → ι → List Moment}
    (each : ∀ s flight i is, I s flight (i :: is) → AllOrdered (moments s i) →
      Clear env flight (moments s i) ∧
        ∀ s', round s i = some s' → I s' (flight.run env (moments s i)) is)
    {list : List ι} (init : I s flight list)
    (ordered : AllOrdered (loopMoments round moments list s)) :
    Clear env flight (loopMoments round moments list s) := by
  have all : I s flight (list ++ []) := (List.append_nil list).symm ▸ init
  exact (clear_loop each all ordered).1

/-! ## Offered addresses -/

/-- **One offered address.** -/
theorem clear_add (underway : Underway s flight (addOps now (entry :: list)))
    (ordered : AllOrdered (addMoments env s entry)) :
    Clear env flight (addMoments env s entry) ∧
      ∀ s', s.onAddAddress env entry.1 entry.2 = some s' →
        Underway s' (flight.run env (addMoments env s entry)) (addOps now list) := by
  unfold addMoments onAddAddress at *
  cases skip : shouldSkipForDial entry.2 with
  -- an address that must not be dialed makes no moment, and is no operation of the plan
  | true =>
    have ops : addOps now (entry :: list) = addOps now list := by
      rw [addOps, List.filter_cons, skip]
      rfl
    refine ⟨trivial, fun s' returned => ?_⟩
    cases returned
    exact ops ▸ underway
  | false =>
    let op : ViewOp := .addAddress now entry.1 entry.2
    let now' := env.readings s.clockReads
    have ops : addOps now (entry :: list) = op :: addOps now list := by
      rw [addOps, List.filter_cons, skip]
      rfl
    rw [ops] at underway
    simp only [Bool.false_eq_true, if_false]
    cases new : (s.view.addAddress (env.readings s.clockReads) entry.1 entry.2).1 with
    | false =>
      refine ⟨clear_op trivial, fun s' returned => ?_⟩
      cases returned
      exact underway.quiet new
    | true =>
      have aside : Aside (s.after (op.dated now'))
          ((s.after (op.dated now')).tellKad (.kadAddAddress entry.1 entry.2)) := .tellKad rfl
      refine underway.called env env.depth new aside (ordered.subset fun m mem => ?_)
      simp only [skip, new, Bool.false_eq_true, if_false, if_true]
      exact List.mem_cons_of_mem _ mem

/-- The addresses of a list. -/
theorem clear_addAll (underway : Underway s flight (addOps now (list ++ more)))
    (ordered : AllOrdered (addAllMoments env list s)) :
    Clear env flight (addAllMoments env list s) ∧
      ∀ s', s.addAddresses env list = some s' →
        Underway s' (flight.run env (addAllMoments env list s)) (addOps now more) :=
  clear_loop (I := fun s flight list => Underway s flight (addOps now list))
    (fun _ _ _ _ underway ordered => clear_add underway ordered) underway ordered

/-- mDNS offers a list of addresses, and each round of the loop finds the dials of the rounds before
it. -/
theorem clear_offered (underway : Underway s flight (addOps now list))
    (ordered : AllOrdered (addAllMoments env list s)) :
    Clear env flight (addAllMoments env list s) :=
  clear_whole (I := fun s flight list => Underway s flight (addOps now list))
    (fun _ _ _ _ underway ordered => clear_add underway ordered) underway ordered

/-- The addresses of a Kademlia answer. -/
def pairsOf (peer : PeerId × List Multiaddr) : List (PeerId × Multiaddr) :=
  peer.2.map fun addr => (peer.1, addr)

/-- Kademlia offers a list for each of several peers: a loop within the loop. -/
theorem clear_kad {peers : List (PeerId × List Multiaddr)}
    (underway : Underway s flight (addOps now (peers.flatMap pairsOf)))
    (ordered : AllOrdered (loopMoments (fun s peer => (onKadPeer env peer).execOk s)
      (kadMoments env) peers s)) :
    Clear env flight (loopMoments (fun s peer => (onKadPeer env peer).execOk s) (kadMoments env)
      peers s) := by
  refine clear_whole (I := fun s flight peers => Underway s flight (addOps now
    (peers.flatMap pairsOf))) ?_ underway ordered
  intro s flight peer peers underway ordered
  rw [List.flatMap_cons] at underway
  unfold kadMoments onKadPeer at *
  simp only [Proc.execOk_bind]
  cases sent : (broadcast env (.kadFoundPeer peer.1 peer.2)).execOk s with
  | none => exact ⟨trivial, fun s' returned => by cases returned⟩
  | some t =>
    rw [sent] at ordered
    have quiet : Aside s t := (Proc.ensures_execOk Talk.broadcast sent).toAside
    have added := clear_addAll (underway.aside quiet) ordered
    refine ⟨added.1, fun s' returned => ?_⟩
    rw [Option.bind_some, Proc.execOk_attempt] at returned
    exact added.2 s' returned

/-! ## Expired addresses -/

/-- **One expired address.** -/
theorem clear_remove (underway : Underway s flight (removeOps now (entry :: list)))
    (ordered : AllOrdered (removeMoments env s entry)) :
    Clear env flight (removeMoments env s entry) ∧
      ∀ s', s.onRemoveAddress env entry.1 entry.2 = some s' →
        Underway s' (flight.run env (removeMoments env s entry)) (removeOps now list) := by
  let op : ViewOp := .removeAddress now entry.1 entry.2
  let now' := env.readings s.clockReads
  have aside : Aside (s.after (op.dated now'))
      ((s.after (op.dated now')).tellKad (.kadRemoveAddress entry.1 entry.2)) := .tellKad rfl
  exact underway.called env env.depth rfl aside (ordered.subset (List.subset_cons_self _ _))

/-! ## A turn -/

/-- A handler of connections. -/
theorem clear_handler {prefix' : NetM Unit} (underway : Underway s flight [op])
    (dated : op.dated now = op) (reconciles : s.reconciles op = true)
    (aside : prefix'.Ensures s fun _ t => Aside (s.after op) t)
    (ordered : AllOrdered (handlerMoments env op prefix' s)) :
    Clear env flight (handlerMoments env op prefix' s) := by
  unfold handlerMoments at *
  cases reached : prefix'.execOk s with
  | none => exact clear_op trivial
  | some t =>
    rw [reached] at ordered
    have quiet := Proc.ensures_execOk aside reached
    rw [← dated] at reconciles quiet
    have called := underway.called env env.depth reconciles quiet
      (ordered.subset (List.subset_cons_self _ _))
    rw [dated] at called
    exact called.1

/-- **An orderly turn is clear.** -/
theorem clear_turn (wf : s.view.WellFormed) (orderly : Orderly (flight.map Prod.snd)
    (s.visits (i.ops (env.readings s.clockReads)))) (ordered : AllOrdered (s.moments env i)) :
    Clear env flight (s.moments env i) := by
  have underway : Underway s flight (i.ops (env.readings s.clockReads)) := .start wf orderly
  cases i with
  | rpc rpc =>
    cases rpc with
    | dial addr =>
      unfold SavedNetwork.moments
      simp only
      split
      · exact clear_request
      · exact trivial
    | _ => exact trivial
  | event event =>
    cases event with
    | mdnsDiscovered list => exact clear_offered underway ordered
    | mdnsExpired list =>
      exact clear_whole (I := fun s flight list => Underway s flight (removeOps _ list))
        (fun _ _ _ _ underway ordered => clear_remove underway ordered) underway ordered
    | connectionEstablished p c endpoint =>
      exact clear_handler underway rfl rfl openedPrefix_aside ordered
    | connectionClosed p c =>
      exact clear_handler underway rfl rfl closedPrefix_aside ordered
    | newExternalAddrOfPeer p a =>
      have offered : Underway s flight (addOps (env.readings s.clockReads) [(p, a)]) := underway
      exact (clear_add offered ordered).1
    | kadGetClosestPeers result =>
      cases result with
      | none => exact trivial
      | some peers => exact clear_kad underway ordered
    | identifyReceived p protocols listenAddrs =>
      -- the protocols are stored first, and no dial depends on them
      have set : Aside s { s with view := s.view.setProtocols p protocols } :=
        ⟨funext fun r => NetworkView.setProtocols_addresses s.view protocols r, rfl, rfl, rfl⟩
      exact clear_offered (underway.aside set) ordered
    | _ => exact trivial

/-! ## The runs -/

/-- The turn is orderly for the dials in flight once its report is heard. -/
def Recorded.orderly (env : Env) (r : Recorded) (turn : Turn) : Prop :=
  Orderly ((inFlight env (r.moments ++ turn.report)).map Prod.snd)
    (r.node.visits (turn.input.ops (env.readings r.node.clockReads)))

instance (env : Env) (r : Recorded) (turn : Turn) : Decidable (r.orderly env turn) :=
  Orderly.decide _ _

/-- **The turn is steady**: whenever a reconcile reads the vector of a connected peer, no cooldown
of the peer's addresses ended in the resort that put it in order. -/
def Recorded.steady (env : Env) (r : Recorded) (turn : Turn) : Prop :=
  ∀ p t, .read p t ∈ r.node.moments env turn.input → t.view.isConnected p = true →
    (env.readings (t.clockReads - 1)).Steady (t.view.addressesOf p)

/-- Every turn is steady while the clock stands still in each resort. -/
theorem Recorded.steady_of_still (still : ∀ n, (env.readings n).Still) (r : Recorded)
    (turn : Turn) : r.steady env turn := fun _ _ _ _ => (still _).steady

/-- A steady turn reads sorted vectors: each was resorted last, by `read_of_turn`. -/
theorem Recorded.steady.ordered (steady : r.steady env turn) :
    AllOrdered (r.node.moments env turn.input) := by
  intro p t read up
  obtain ⟨_, _, _, n, _, last, resorted⟩ := read_of_turn read
  have calm := steady p t read up
  rw [last, Nat.add_sub_cancel] at calm
  exact ⟨_, resorted.sorted calm⟩

/-- What a turn hears from the swarm clears the flights that ended, and opens none. -/
theorem clear_report (turn : Turn) : Clear env flight turn.report := by
  have told : ∀ (dial : Option Nat) (established : Bool), Clear env flight
      (dial.toList.map fun k => .settled k established) := by
    intro dial established
    cases dial with
    | none => exact trivial
    | some k => exact clear_settled
  unfold Turn.report
  split
  · exact told _ _
  · exact told _ _
  · exact trivial

/-- One turn, from a state where no dial was made twice: its own deeds repeat none either. -/
theorem clear_seen (wf : r.node.view.WellFormed) (clear : Clear env [] r.moments)
    (orderly : r.orderly env turn) (steady : r.steady env turn) :
    Clear env [] (r.seen env turn) := by
  unfold Recorded.seen
  rw [← List.append_assoc]
  have reported := clear_append.mpr ⟨clear, clear_report turn⟩
  exact clear_append.mpr ⟨reported, clear_turn wf orderly steady.ordered⟩

/-- The run of such turns: nothing in flight is dialed, by induction on the turns. -/
theorem clear_run (run : Run (Recorded.step env)
    (fun _ r turn => r.orderly env turn ∧ r.steady env turn) (.start me max) h r) :
    r.node.view.WellFormed ∧ Clear env [] r.moments := by
  have init : (Recorded.start me max).node.view.WellFormed ∧
      Clear env [] (Recorded.start me max).moments := ⟨NetworkView.wellFormed_empty, trivial⟩
  refine run.state_invariant (I := fun r => r.node.view.WellFormed ∧ Clear env [] r.moments)
    init ?_
  intro _ r r' turn inv orderly returned
  obtain ⟨s, stepped, rfl⟩ := Option.map_eq_some_iff.mp returned
  obtain ⟨t, trace, ends⟩ := moments_traces env (Nat.zero_le r.node.clockReads) turn.input
  obtain rfl := ends s stepped
  exact ⟨wellFormed_trace trace inv.1, clear_seen inv.1 inv.2 orderly.1 orderly.2⟩

/-- **No duplicate dial in a run of orderly and steady turns**: no reconcile, in any turn of the run
or in the next, dials an address that a dial started by a reconcile is in flight to. -/
theorem no_duplicate_dial (env : Env) (me : PeerId) (max : Nat) {h : List Turn} {r : Recorded}
    {turn : Turn} {before rest : List Moment} {p : PeerId} {t : SavedNetwork} {a : Multiaddr}
    (run : Run (Recorded.step env) (fun _ r turn => r.orderly env turn ∧ r.steady env turn)
      (.start me max) h r)
    (orderly : r.orderly env turn) (steady : r.steady env turn)
    (seen : r.seen env turn = before ++ .read p t :: rest)
    (dials : t.dialTarget p = some a) : a ∉ (inFlight env before).map Prod.snd := by
  obtain ⟨wf, clear⟩ := clear_run run
  exact Clear.read (seen ▸ clear_seen wf clear orderly steady) dials

/-- Two peers are found, and the first connects. -/
def firstConnects : List Turn :=
  [⟨.event (.mdnsDiscovered [(⟨[1]⟩, lanAddr 1), (⟨[2]⟩, lanAddr 2)]), none⟩,
    ⟨.event (.connectionEstablished ⟨[1]⟩ ⟨0⟩ (.dialer (lanAddr 1))), some 1⟩]

/-- A better address of the first peer is dialed while the dial of the second is in flight. -/
theorem no_duplicate_dial_migrating : ∃ r before t,
    Run (Recorded.step .calm) (fun _ r turn => r.orderly .calm turn ∧ r.steady .calm turn)
      (.start ⟨[0]⟩ 4) firstConnects r ∧
    r.seen .calm (foundAt (lanAddr 0)) = before ++ [.read ⟨[1]⟩ t] ∧
    t.dialTarget ⟨[1]⟩ = some (lanAddr 0) ∧ inFlight .calm before = [(2, lanAddr 2)] ∧
    lanAddr 0 ∉ (inFlight .calm before).map Prod.snd := by
  obtain ⟨r, run, shape⟩ : ∃ r, Run (Recorded.step .calm) (fun _ r turn => r.orderly .calm turn)
      (.start ⟨[0]⟩ 4) firstConnects r ∧
      (decide (r.orderly .calm (foundAt (lanAddr 0))) &&
        ((r.seen .calm (foundAt (lanAddr 0))).drop 9).isEmpty &&
        (readAt (r.seen .calm (foundAt (lanAddr 0))) 8).any fun read =>
          decide (read.1 = ⟨[1]⟩) && decide (read.2.dialTarget ⟨[1]⟩ = some (lanAddr 0)) &&
            decide (inFlight .calm ((r.seen .calm (foundAt (lanAddr 0))).take 8) =
              [(2, lanAddr 2)])) = true := Run.exists_of_replay (by decide)
  simp only [Bool.and_eq_true, decide_eq_true_eq, List.isEmpty_iff, Option.any_eq_true] at shape
  obtain ⟨⟨orderly, last⟩, ⟨p, t⟩, read, ⟨rfl, dials⟩, flying⟩ := shape
  have parts := eq_of_readAt read
  rw [last] at parts
  -- the clock of this world stands still, so its turns are steady
  have steady : ∀ (r : Recorded) turn, r.steady .calm turn :=
    Recorded.steady_of_still fun _ _ => rfl
  have run := run.mono fun _ r turn orderly => And.intro orderly (steady r turn)
  exact ⟨r, _, t, run, parts, dials, flying,
    no_duplicate_dial .calm ⟨[0]⟩ 4 run orderly (steady r _) parts dials⟩

/-- **An address is dialed twice**: a second address of the peer is found while the dial of the
first is in flight, and the first is still the best. -/
theorem duplicate_dial : ¬ ∀ (env : Env) (me : PeerId) (max : Nat) (h : List Turn) (r : Recorded)
    (turn : Turn) (before rest : List Moment) (p : PeerId) (t : SavedNetwork) (a : Multiaddr),
    Run (Recorded.step env) (fun _ _ _ => True) (.start me max) h r →
    r.seen env turn = before ++ .read p t :: rest → t.dialTarget p = some a →
    a ∉ (inFlight env before).map Prod.snd := by
  intro always
  obtain ⟨r, run, shape⟩ : ∃ r, Run (Recorded.step .calm) (fun _ _ _ => True) (.start ⟨[0]⟩ 4)
      [foundAt (lanAddr 1)] r ∧
      ((readAt (r.seen .calm (foundAt (lanAddr 2))) 3).any fun read =>
        decide (read.2.dialTarget read.1 = some (lanAddr 1)) &&
          decide (inFlight .calm ((r.seen .calm (foundAt (lanAddr 2))).take 3) =
            [(1, lanAddr 1)])) = true := Run.exists_of_replay (by decide)
  simp only [Option.any_eq_true, Bool.and_eq_true, decide_eq_true_eq] at shape
  obtain ⟨⟨p, t⟩, read, dials, flying⟩ := shape
  have apart := always .calm ⟨[0]⟩ 4 _ r _ _ _ p t _ run (eq_of_readAt read) dials
  rw [flying] at apart
  exact apart List.mem_cons_self

end Saved
