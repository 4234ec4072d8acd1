import Saved.Laws.Pair

/-!
# Two nodes settle on the leader's best address

The other half of pruning: what it is for. When the prune leader knows of every open connection and
its best address is up, one reconcile of it decides what becomes of them. Whatever happens next, in
whatever order (connections are opened and closed, addresses are learned and expire, the other side
reconciles), until the leader reconciles again no other close is asked for; and when those are done
that it asked for, what is left of the connections is exactly what stood on the leader's best
address (`pair_settles`).

The leader may have asked for closes before, when other addresses were best. None of those
connections can be on the address that is best now: the spare that it kept then would rank before
them.
-/

namespace Saved

open Saved.Lib SavedNetwork

variable {p : PeerId} {a : Multiaddr} {c : ConnectionId} {s s' : SavedNetwork}
  {learned : List ConnectionId} {best : AddressMetadata} {rest : List AddressMetadata}

/-! ## One side -/

/-- **No close is asked for on the best address**, when every connection that is not asked to close
is tracked: a spare is one of them. -/
theorem Sound.best_unasked (sound : Sound p learned s)
    (aware : ∀ c ∈ learned, ¬ Asked s c → ∃ a, s.view.tracked p c = some a)
    (vector : s.view.addressesOf p = best :: rest)
    (stands : s.view.tracked p c = some best.address) : ¬ Asked s c := by
  intro asked
  obtain ⟨d, mem, notAsked, first⟩ := sound.spared ⟨c, asked⟩
  obtain ⟨a, tracked⟩ := aware d mem notAsked
  have before := first a tracked c best.address asked stands
  rcases sound.ranked.of_tracked sound.wf vector tracked with ⟨rfl, _⟩ | after
  · exact lt_irrefl _ before
  · exact lt_asymm before after

/-- **What the prune leader leaves alone**, of what it tracks: the best address. -/
theorem Sound.unasked_iff (sound : Sound p learned s)
    (aware : ∀ c ∈ learned, ¬ Asked s c → ∃ a, s.view.tracked p c = some a)
    (vector : s.view.addressesOf p = best :: rest)
    (asked : ∀ c, Asked s' c ↔ Asked s c ∨ c ∈ rest.flatMap (·.activeConnections))
    (tracked : ¬ Asked s c → ∃ a, s.view.tracked p c = some a) :
    ¬ Asked s' c ↔ s.view.tracked p c = some best.address := by
  rw [asked, not_or]
  constructor
  · rintro ⟨before, kept⟩
    obtain ⟨a, stands⟩ := tracked before
    have there := ((exists_tracked_iff sound.wf vector).mp ⟨a, stands⟩).resolve_right kept
    rw [NetworkView.tracked_iff sound.wf, vector]
    exact ⟨best, List.mem_cons_self, rfl, there⟩
  · intro stands
    refine ⟨sound.best_unasked aware vector stands, fun elsewhere => ?_⟩
    rcases sound.ranked.of_tracked sound.wf vector stands with ⟨_, kept⟩ | after
    · exact kept elsewhere
    · exact lt_irrefl _ after

/-- A leader whose best address is up asks for the closes of the other addresses. -/
theorem prune_asked {env : Env} (vector : s.view.addressesOf p = best :: rest)
    (up : s.view.isConnectedOver p best.address = true) (leads : s.isPruneLeader p = true)
    (returned : s.reconcilePeerConnections env p = some s') :
    ∀ c, Asked s' c ↔ Asked s c ∨ c ∈ rest.flatMap (·.activeConnections) := by
  have pruned : s' = s.tell ((rest.flatMap (·.activeConnections)).map .closeConnection) := by
    have returned : s.reconcileFrom env p env.depth = some s' := returned
    cases depth : env.depth with
    | zero =>
      rw [depth] at returned
      cases returned
    | succ d =>
      rw [depth, reconcileFrom_prunes vector up leads] at returned
      exact (Option.some.inj returned).symm
  intro c
  rw [pruned]
  show _ ∈ s.swarm.calls ++ _ ↔ _
  rw [List.mem_append, List.mem_map]
  refine or_congr_right ⟨fun told => ?_, fun mem => ⟨c, mem, rfl⟩⟩
  obtain ⟨d, mem, same⟩ := told
  cases same
  exact mem

/-! ## Both sides -/

variable {id : Side → PeerId} {maxRelays : Side → Nat} {leader : Side} {event : PairEvent}
  {t t' u : Pair} {h more : List PairEvent}

/-- A side tracks every open link. -/
def Pair.Aware (id : Side → PeerId) (side : Side) (t : Pair) : Prop :=
  ∀ link ∈ t.opened, link ∉ t.closed →
    ∃ a, (t.party side).node.view.tracked (id side.other) (link.idAt side) = some a

/-- The closes that a side has asked for of some links are done. -/
def Pair.Done (side : Side) (links : List Link) (t : Pair) : Prop :=
  ∀ link ∈ links, t.AskedBy side link → link ∈ t.closed

/-- A side reconciles. -/
def PairEvent.reconciles (side : Side) : PairEvent → Prop
  | reconcile s _ => s = side
  | _ => False

/-- **Anything may happen but a reconcile of the leader.** -/
def Meanwhile (leader : Side) (t : Pair) (event : PairEvent) : Prop :=
  event.allowed t = true ∧ ¬ event.reconciles leader

/-- The rule of one step, over a run of the pair whose events are allowed. -/
theorem spared_run {ok : List PairEvent → Pair → PairEvent → Prop}
    (allowed : ∀ h t e, ok h t e → e.allowed t = true) (spared : Spared id t)
    (run : Run (Pair.step id) ok t h t') : Spared id t' :=
  run.state_invariant spared fun h t _ event spared meets stepped =>
    spared.step (allowed h t event meets) stepped

/-- The rule from the start. -/
theorem spared_of_run
    (run : Run (Pair.step id) (fun _ t e => e.allowed t = true) (.start id maxRelays) h t) :
    Spared id t := spared_run (fun _ _ _ allowed => allowed) .start run

/-- The other side leads when the one does not, and asks for nothing. -/
theorem Spared.asked_of_closed (spared : Spared id t)
    (leads : (t.party leader).node.isPruneLeader (id leader.other) = true) {link : Link}
    (closed : link ∈ t.closed) : t.AskedBy leader link := by
  obtain ⟨side, asked⟩ := spared.closed link closed
  by_cases here : side = leader
  · exact here ▸ asked
  · obtain rfl : side = leader.other := by
      cases side <;> cases leader <;> first | rfl | exact absurd rfl here
    have leads' : (t.party leader.other).node.isPruneLeader (id leader.other.other) = true := by
      by_contra follows
      exact (spared.sound leader.other).follows (Bool.eq_false_iff.mpr follows) _ asked
    have twice : leader.other.other = leader := by cases leader <;> rfl
    unfold isPruneLeader at leads leads'
    rw [decide_eq_true_eq, spared.localPeerId] at leads leads'
    rw [twice] at leads'
    exact absurd leads' (lt_asymm leads)

/-- **Meanwhile the leader asks for nothing.** -/
theorem meanwhile_calls (meets : Meanwhile leader t event) (stepped : t.step id event = some t') :
    (t'.party leader).node.swarm.calls = (t.party leader).node.swarm.calls := by
  have acted : ∀ {side : Side} {party : Party}, party.node.swarm.calls =
      (t.party side).node.swarm.calls →
      ((t.act side party).party leader).node.swarm.calls =
        (t.party leader).node.swarm.calls := by
    intro side party same
    show (Function.update t.party side party leader).node.swarm.calls = _
    rw [Function.update_apply]
    split
    · next here => exact here ▸ same
    · rfl
  cases event with
  | connect link | close link =>
    cases stepped
    rfl
  | learn side env link endpoint | addAddress side env addr | removeAddress side env addr
  | deliver side env link =>
    cases stepped
    exact acted rfl
  | reconcile side env =>
    obtain ⟨node, _, rfl⟩ := Option.map_eq_some_iff.mp stepped
    have apart : leader ≠ side := fun here => meets.2 here.symm
    show (Function.update t.party side _ leader).node.swarm.calls = _
    rw [Function.update_of_ne apart]

/-- So what the leader has asked to close stays as it was. -/
theorem meanwhile_asked (run : Run (Pair.step id) (fun _ => Meanwhile leader) t more t')
    (link : Link) : t'.AskedBy leader link ↔ t.AskedBy leader link := by
  have same : (t'.party leader).node.swarm.calls = (t.party leader).node.swarm.calls := by
    refine run.state_invariant (I := fun t' : Pair =>
      (t'.party leader).node.swarm.calls = (t.party leader).node.swarm.calls) rfl ?_
    exact fun _ _ _ _ before meets stepped => (meanwhile_calls meets stepped).trans before
  show _ ∈ _ ↔ _ ∈ _
  rw [same]

/-- The closes that a side has asked for can be done, one after another. -/
theorem closes_run {links : List Link}
    (asked : ∀ link ∈ links, link ∈ t.opened ∧ t.AskedBy leader link) :
    Run (Pair.step id) (fun _ => Meanwhile leader) t (links.map .close)
      { t with closed := t.closed ++ links } := by
  induction links using List.reverseRecOn with
  | nil =>
    rw [List.append_nil]
    exact .start
  | append_singleton links link ih =>
    have before := ih fun other here => asked other (List.mem_append_left _ here)
    obtain ⟨opened, here⟩ := asked link (List.mem_append_right _ (List.mem_singleton.mpr rfl))
    rw [List.map_append, ← List.append_assoc]
    refine .next before ⟨?_, False.elim⟩ rfl
    show (decide (link ∈ t.opened) && (decide (t.AskedBy .x link) || decide (t.AskedBy .y link)))
      = true
    cases leader <;> simp [opened, here]

/-- **Two nodes settle on the leader's best address.** In every reachable state in which the prune
leader tracks every open link and has its best address up, after one reconcile of it and whatever
else happens until the next: when the closes that it asked for are done, the links that were open
and still are, are those that the leader tracked on its best address. They can be done, and there
is one such link. -/
theorem pair_settles (id : Side → PeerId) (maxRelays : Side → Nat) {leader : Side} {env : StillEnv}
    {h : List PairEvent} {t u : Pair} {best : AddressMetadata} {rest : List AddressMetadata}
    (run : Run (Pair.step id) (fun _ t event => event.allowed t = true) (.start id maxRelays) h t)
    (aware : t.Aware id leader)
    (leads : (t.party leader).node.isPruneLeader (id leader.other) = true)
    (vector : (t.party leader).node.view.addressesOf (id leader.other) = best :: rest)
    (up : (t.party leader).node.view.isConnectedOver (id leader.other) best.address = true)
    (reconciled : t.step id (.reconcile leader env) = some u) :
    (∀ more t', Run (Pair.step id) (fun _ => Meanwhile leader) u more t' →
      t'.Done leader t.opened → ∀ link ∈ t.opened, link ∉ t'.closed ↔
        (t.party leader).node.view.tracked (id leader.other) (link.idAt leader) =
          some best.address) ∧
    (∃ more t', Run (Pair.step id) (fun _ => Meanwhile leader) u more t' ∧
      t'.Done leader t.opened) ∧
    ∃ link ∈ t.opened, (t.party leader).node.view.tracked (id leader.other) (link.idAt leader) =
      some best.address := by
  have spared : Spared id t := spared_of_run run
  have spared' : Spared id u := spared.step rfl reconciled
  have sound := spared.sound leader
  have known : ∀ link ∈ t.opened, ¬ Asked (t.party leader).node (link.idAt leader) →
      ∃ a, (t.party leader).node.view.tracked (id leader.other) (link.idAt leader) = some a :=
    fun link opened before => aware link opened fun closed =>
      before (spared.asked_of_closed leads closed)
  have all : ∀ c ∈ (t.party leader).learned, ¬ Asked (t.party leader).node c →
      ∃ a, (t.party leader).node.view.tracked (id leader.other) c = some a := by
    intro c learned before
    obtain ⟨link, opened, rfl⟩ := spared.learned leader c learned
    exact known link opened before
  -- What the leader does not ask for is what stands on its best address.
  have unasked : ∀ link ∈ t.opened, ¬ u.AskedBy leader link ↔
      (t.party leader).node.view.tracked (id leader.other) (link.idAt leader) =
        some best.address := by
    intro link opened
    obtain ⟨node, returned, rfl⟩ := Option.map_eq_some_iff.mp reconciled
    have pruned := prune_asked vector up leads returned
    rw [← sound.unasked_iff all vector pruned (known link opened)]
    show ¬ Asked (Function.update t.party leader _ leader).node _ ↔ _
    rw [Function.update_self]
  have opened : u.opened = t.opened := by
    obtain ⟨node, _, rfl⟩ := Option.map_eq_some_iff.mp reconciled
    rfl
  refine ⟨fun more t' settling done link here => ?_, ?_, ?_⟩
  · have spared'' : Spared id t' := spared_run (fun _ _ _ meets => meets.1) spared' settling
    have leads'' : (t'.party leader).node.isPruneLeader (id leader.other) = true := by
      rw [← leads]
      refine Sound.isPruneLeader_congr ?_
      rw [spared''.localPeerId, spared.localPeerId]
    rw [← unasked link here, ← meanwhile_asked settling]
    exact not_congr ⟨spared''.asked_of_closed leads'', done link here⟩
  · let asked : List Link := t.opened.filter fun link => u.AskedBy leader link
    have closes : Run (Pair.step id) (fun _ => Meanwhile leader) u (asked.map .close)
        { u with closed := u.closed ++ asked } := by
      refine closes_run fun link here => ?_
      obtain ⟨listed, byLeader⟩ := List.mem_filter.mp here
      exact ⟨opened ▸ listed, of_decide_eq_true byLeader⟩
    refine ⟨_, _, closes, fun link here byLeader => List.mem_append_right _ ?_⟩
    exact List.mem_filter.mpr ⟨here, decide_eq_true byLeader⟩
  · obtain ⟨c, stands⟩ := (NetworkView.isConnectedOver_iff_tracked sound.wf).mp up
    obtain ⟨link, here, rfl⟩ := spared.learned leader c (sound.tracked c _ stands)
    exact ⟨link, here, stands⟩

/-- Two links on two addresses, and the prune leader has learned of both. -/
def bothLearned : List PairEvent :=
  [.connect ⟨⟨0⟩, ⟨0⟩⟩, .connect ⟨⟨1⟩, ⟨1⟩⟩,
    .learn .x .calm ⟨⟨0⟩, ⟨0⟩⟩ (.dialer (lanAddr 3)),
    .learn .x .calm ⟨⟨1⟩, ⟨1⟩⟩ (.dialer (lanAddr 2))]

/-- What the leader knows then: each link where it learned of it. -/
def bothTracked (t : Pair) : Bool :=
  let view := (t.party .x).node.view
  t.opened.all (fun link => (view.tracked ⟨[1]⟩ link.idX).isSome &&
    decide (view.tracked ⟨[1]⟩ link.idX = some (lanAddr 2) ↔ link = ⟨⟨1⟩, ⟨1⟩⟩)) &&
  decide ((view.addressesOf ⟨[1]⟩).head?.map (·.address) = some (lanAddr 2)) &&
  view.isConnectedOver ⟨[1]⟩ (lanAddr 2) && (t.party .x).node.isPruneLeader ⟨[1]⟩ &&
  (t.step idInOrder (.reconcile .x .calm)).isSome

/-- The link on the better address stays. -/
theorem pair_settles_two : ∃ t u : Pair, t.step idInOrder (.reconcile .x .calm) = some u ∧
    ∀ more t', Run (Pair.step idInOrder) (fun _ => Meanwhile .x) u more t' →
      t'.Done .x t.opened → ∀ link ∈ t.opened, link ∉ t'.closed ↔ link = ⟨⟨1⟩, ⟨1⟩⟩ := by
  obtain ⟨t, run, tracked⟩ : ∃ t, Run (Pair.step idInOrder)
      (fun _ t event => event.allowed t = true) (.start idInOrder fun _ => 4) bothLearned t ∧
      bothTracked t = true := Run.exists_of_replay (by decide)
  simp only [bothTracked, Bool.and_eq_true, List.all_eq_true, decide_eq_true_eq] at tracked
  obtain ⟨⟨⟨⟨each, head⟩, up⟩, leads⟩, returns⟩ := tracked
  obtain ⟨u, reconciled⟩ := Option.isSome_iff_exists.mp returns
  obtain ⟨best, first, same⟩ := Option.map_eq_some_iff.mp head
  obtain ⟨rest, vector⟩ := List.head?_eq_some_iff.mp first
  refine ⟨t, u, reconciled, fun more t' settling done link here => ?_⟩
  have aware : t.Aware idInOrder .x := fun link opened _ =>
    Option.isSome_iff_exists.mp (each link opened).1
  have settles := (pair_settles idInOrder (fun _ => 4) run aware leads vector (same ▸ up)
    reconciled).1 more t' settling done link here
  rw [settles, same]
  exact (each link here).2

end Saved
