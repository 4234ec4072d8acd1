import Saved.Laws.Ranking

/-!
# Pruning never disconnects two nodes

The prune leader of two nodes still sees a connection it has asked to close, until it hears of the
close, and its best address may change in between. What keeps a connection alive is that a side
which asks for closes always holds a *spare*: a connection that it has not asked to close and that
ranks before every one that it has. A failure is never marked on a connected
address and a connection clears the backoff, so the order among connected addresses never moves
(`Ranked.best_lt`), and a prune that asks for the close of the spare leaves another one behind.

The other side asks for nothing, so a spare of the leader is asked for by neither.
-/

namespace Saved

open Saved.Lib SavedNetwork

variable {env : StillEnv} {p : PeerId} {c : ConnectionId} {s s' : SavedNetwork}
  {learned : List ConnectionId}

/-- All readings of one resort show the same instant. -/
theorem StillEnv.readings_still (env : StillEnv) (n : Nat) : (env.readings n).Still := env.still n

/-! ## One side -/

/-- **A spare**: no close is asked for it, and it ranks before every connection whose close is
asked for. A connection that is not tracked ranks before every other. -/
def Spare (s : SavedNetwork) (p : PeerId) (c : ConnectionId) : Prop :=
  ¬ Asked s c ∧ ∀ a, s.view.tracked p c = some a →
    ∀ d b, Asked s d → s.view.tracked p d = some b → a.rankKey < b.rankKey

/-- **What one side keeps** of the connections to the other that it has learned of. -/
structure Sound (p : PeerId) (learned : List ConnectionId) (s : SavedNetwork) : Prop where
  wf : s.view.WellFormed
  ranked : Ranked (s.view.addressesOf p)
  tracked : ∀ c a, s.view.tracked p c = some a → c ∈ learned
  asked : ∀ c, Asked s c → c ∈ learned
  follows : s.isPruneLeader p = false → ∀ c, ¬ Asked s c
  spared : (∃ c, Asked s c) → ∃ c ∈ learned, Spare s p c

namespace Sound

/-- A side that has learned of nothing tracks nothing and has asked for no close. -/
theorem start {me : PeerId} {max : Nat} : Sound p [] (.start me max) where
  wf := NetworkView.wellFormed_empty
  ranked := ranked_nil
  tracked _ _ stands := nomatch stands
  asked _ asked := by cases List.mem_singleton.mp asked
  follows _ _ asked := by cases List.mem_singleton.mp asked
  spared some := by
    obtain ⟨c, asked⟩ := some
    cases List.mem_singleton.mp asked

/-- An operation of the view that puts no connection on an address. -/
theorem onView {f : Readings → NetworkView → NetworkView} (sound : Sound p learned s)
    (wf : ∀ now, (f now s.view).WellFormed)
    (ranked : ∀ now, now.Still → Ranked ((f now s.view).addressesOf p))
    (fewer : ∀ now c a, (f now s.view).tracked p c = some a → s.view.tracked p c = some a) :
    Sound p learned (s.onView env.toEnv f) where
  wf := wf _
  ranked := ranked _ (env.readings_still _)
  tracked c a stands := sound.tracked c a (fewer _ c a stands)
  asked := sound.asked
  follows := sound.follows
  spared some := by
    obtain ⟨c, mem, notAsked, first⟩ := sound.spared some
    exact ⟨c, mem, notAsked, fun a stands d b asked stands' =>
      first a (fewer _ c a stands) d b asked (fewer _ d b stands')⟩

/-- A better address may appear, which changes the ranks of none that are there. -/
theorem addAddress {a : Multiaddr} (sound : Sound p learned s) :
    Sound p learned (s.onView env.toEnv fun now view => (view.addAddress now p a).2) := by
  refine sound.onView (fun now => (NetworkView.addAddress_registers sound.wf).1)
    (fun now still => NetworkView.addAddress_ranked still sound.ranked) fun now c b stands => ?_
  rwa [NetworkView.tracked_addAddress sound.wf] at stands

/-- An address and the connections on it may go from the view. A spare that is not tracked any more
ranks before all the more. -/
theorem removeAddress {a : Multiaddr} (sound : Sound p learned s) :
    Sound p learned (s.onView env.toEnv fun now view => view.removeAddress now p a) := by
  refine sound.onView (fun now => (NetworkView.removeAddress_registers sound.wf).1)
    (fun now still => NetworkView.removeAddress_ranked still sound.ranked) fun now c b stands => ?_
  rw [NetworkView.tracked_removeAddress sound.wf, Tracked.expire_eq_some] at stands
  exact stands.1

/-- A close that is delivered takes one connection out, and the spare that is left was there
before. -/
theorem removeConnection (sound : Sound p learned s) :
    Sound p learned (s.onView env.toEnv fun now view => view.removeConnection now p c) := by
  refine sound.onView (fun now => (NetworkView.removeConnection_registers sound.wf).1)
    (fun now still => NetworkView.removeConnection_ranked still sound.ranked)
    fun now d b stands => ?_
  rw [NetworkView.tracked_removeConnection sound.wf, Tracked.set_eq_some] at stands
  rcases stands with ⟨_, none⟩ | ⟨_, before⟩
  · cases none
  · exact before

/-- A side learns of a connection that it had not heard of: no close of it is asked for yet. -/
theorem addConnection {endpoint : ConnectedPoint} (sound : Sound p learned s) (new : c ∉ learned) :
    Sound p (c :: learned)
      (s.onView env.toEnv fun now view => view.addConnection now p c endpoint) := by
  have tracked : ∀ d b, (s.onView env.toEnv fun now view =>
      view.addConnection now p c endpoint).view.tracked p d = some b →
      d = c ∨ s.view.tracked p d = some b := by
    intro d b stands
    change (NetworkView.addConnection _ _ _ _ _).tracked p d = some b at stands
    rw [NetworkView.tracked_addConnection sound.wf, Tracked.set_eq_some] at stands
    rcases stands with ⟨⟨_, here⟩, _⟩ | ⟨_, before⟩
    · exact .inl here
    · exact .inr before
  have other : ∀ {d}, d ∈ learned → d ≠ c := fun mem same => new (same ▸ mem)
  -- The new connection is not asked for, so the spare that there was is still one.
  exact {
    wf := (NetworkView.addConnection_registers sound.wf).1
    ranked := NetworkView.addConnection_ranked (env.readings_still _) sound.ranked
    tracked := fun d b stands => by
      rcases tracked d b stands with rfl | before
      · exact List.mem_cons_self
      · exact List.mem_cons_of_mem _ (sound.tracked d b before)
    asked := fun d asked => List.mem_cons_of_mem _ (sound.asked d asked)
    follows := sound.follows
    spared := fun some => by
      obtain ⟨d, mem, notAsked, first⟩ := sound.spared some
      refine ⟨d, List.mem_cons_of_mem _ mem, notAsked, fun a stands e b asked stands' => ?_⟩
      exact first a ((tracked d a stands).resolve_left (other mem)) e b asked
        ((tracked e b stands').resolve_left (other (sound.asked e asked))) }

/-- **A prune leaves a spare.** A connection on the best address is one, unless the close of some
connection there is asked for; then the spare there was comes before the best address, so it is
not tracked, and stays one. -/
theorem prune {best : AddressMetadata} {rest : List AddressMetadata} (sound : Sound p learned s)
    (vector : s.view.addressesOf p = best :: rest)
    (up : s.view.isConnectedOver p best.address = true) (tracked : s'.view.tracked = s.view.tracked)
    (asked : ∀ c, Asked s' c ↔ Asked s c ∨ c ∈ rest.flatMap (·.activeConnections)) :
    ∃ c ∈ learned, Spare s' p c := by
  have behind : ∀ d b, s.view.tracked p d = some b → b = best.address ∧
      d ∉ rest.flatMap (·.activeConnections) ∨ best.address.rankKey < b.rankKey := fun d b stands =>
    sound.ranked.of_tracked sound.wf vector stands
  -- If no close is asked for on the best address, a connection of it is the spare.
  by_cases clean : ∀ d, Asked s d → s.view.tracked p d ≠ some best.address
  · obtain ⟨c, here⟩ := (NetworkView.isConnectedOver_iff_tracked sound.wf).mp up
    refine ⟨c, sound.tracked c _ here, fun asked' => ?_, fun a stands d b asked' stands' => ?_⟩
    · rcases (asked c).mp asked' with before | pruned
      · exact clean c before here
      · rcases behind c _ here with ⟨_, kept⟩ | after
        · exact kept pruned
        · exact lt_irrefl _ after
    · rw [tracked] at stands stands'
      obtain rfl := Option.some.inj (here.symm.trans stands)
      rcases behind d b stands' with ⟨rfl, kept⟩ | after
      · exact absurd stands' (clean d (((asked d).mp asked').resolve_right kept))
      · exact after
  -- Else the spare from before ranks before the best address: it is not tracked, nor closed.
  · simp only [not_forall, not_not] at clean
    obtain ⟨d, asked', there⟩ := clean
    obtain ⟨c, mem, notAsked, first⟩ := sound.spared ⟨d, asked'⟩
    have untracked : ∀ a, s.view.tracked p c ≠ some a := by
      intro a stands
      have before := first a stands d _ asked' there
      rcases behind c a stands with ⟨rfl, _⟩ | after
      · exact lt_irrefl _ before
      · exact lt_asymm before after
    refine ⟨c, mem, fun asked' => ?_, fun a stands => ?_⟩
    · rcases (asked c).mp asked' with before | pruned
      · exact notAsked before
      · obtain ⟨a, stands⟩ := (exists_tracked_iff sound.wf vector).mpr (.inr pruned)
        exact untracked a stands
    · rw [tracked] at stands
      exact absurd stands (untracked a)

/-- Who leads is decided by the two ids. -/
theorem isPruneLeader_congr (same : s'.swarm.localPeerId = s.swarm.localPeerId) :
    s'.isPruneLeader p = s.isPruneLeader p := by
  unfold isPruneLeader
  rw [same]

/-- A reconcile asks for closes only in the branch of the leader with its best address in use, and
there `prune` finds the spare. In the other branches the closes asked for stay the same. -/
theorem reconcile (sound : Sound p learned s)
    (returned : s.reconcilePeerConnections env.toEnv p = some s') : Sound p learned s' := by
  have reconciled := reconciled_of_returned returned
  have quiet := Quiet.reconcile returned
  have tracked := quiet.tracked sound.wf
  have leads := isPruneLeader_congr (p := p) quiet.localPeerId
  have ranked := reconciled.ranked env.readings_still sound.wf sound.ranked
  -- Only the pruning branch asks for closes. The others keep the spare.
  rcases reconciled.asked with same | ⟨best, rest, vector, leader, up, asked⟩
  · exact {
      wf := quiet.wf sound.wf
      ranked := ranked
      tracked := by rw [tracked]; exact sound.tracked
      asked := fun c asked => sound.asked c ((same c).mp asked)
      follows := fun follows c asked => sound.follows (leads ▸ follows) c ((same c).mp asked)
      spared := by
        unfold Spare
        simp only [same, tracked]
        exact sound.spared }
  · exact {
      wf := quiet.wf sound.wf
      ranked := ranked
      tracked := by rw [tracked]; exact sound.tracked
      asked := fun c asked' => by
        rcases (asked c).mp asked' with before | pruned
        · exact sound.asked c before
        · obtain ⟨a, stands⟩ := (exists_tracked_iff sound.wf vector).mpr (.inr pruned)
          exact sound.tracked c a stands
      follows := fun follows => by
        rw [leads, leader] at follows
        cases follows
      spared := fun _ => sound.prune vector up tracked asked }

end Sound

/-! ## Both sides -/

variable {id : Side → PeerId} {maxRelays : Side → Nat} {event : PairEvent} {t t' : Pair}
  {h : List PairEvent}

/-- **What the two nodes keep.** -/
structure Spared (id : Side → PeerId) (t : Pair) : Prop where
  localPeerId : ∀ side, (t.party side).node.swarm.localPeerId = id side
  sound : ∀ side, Sound (id side.other) (t.party side).learned (t.party side).node
  learned : ∀ side, ∀ c ∈ (t.party side).learned, ∃ link ∈ t.opened, link.idAt side = c
  closed : ∀ link ∈ t.closed, ∃ side, t.AskedBy side link

namespace Spared

/-- The two nodes start with no link between them. -/
theorem start : Spared id (.start id maxRelays) where
  localPeerId _ := rfl
  sound _ := .start
  learned _ _ mem := nomatch mem
  closed _ mem := nomatch mem

/-- **A side acts**: it stays sound, keeps its id, learns of opened links only, and takes
nothing back that it asked for. -/
theorem act {side : Side} {party : Party} (spared : Spared id t)
    (same : party.node.swarm.localPeerId = (t.party side).node.swarm.localPeerId)
    (sound : Sound (id side.other) party.learned party.node)
    (learned : ∀ c ∈ party.learned, ∃ link ∈ t.opened, link.idAt side = c)
    (asked : ∀ c, Asked (t.party side).node c → Asked party.node c) :
    Spared id (t.act side party) := by
  have acted : ∀ {P : Side → Party → Prop}, P side party → (∀ s, P s (t.party s)) →
      ∀ s, P s ((t.act side party).party s) := fun here before =>
    (Function.forall_update_iff t.party _).mpr ⟨here, fun s _ => before s⟩
  refine ⟨?_, ?_, ?_, ?_⟩
  · exact acted (P := fun s q => q.node.swarm.localPeerId = id s)
      (same.trans (spared.localPeerId side)) spared.localPeerId
  · exact acted (P := fun s q => Sound (id s.other) q.learned q.node) sound spared.sound
  · exact acted (P := fun s q => ∀ c ∈ q.learned, ∃ link ∈ t.opened, link.idAt s = c) learned
      spared.learned
  · intro link mem
    obtain ⟨s, before⟩ := spared.closed link mem
    have kept : ∀ s c, Asked (t.party s).node c → Asked ((t.act side party).party s).node c :=
      acted (P := fun s q => ∀ c, Asked (t.party s).node c → Asked q.node c) asked
        fun _ _ asked => asked
    exact ⟨s, kept s _ before⟩

/-- A side changes its view. -/
theorem onView {side : Side} {env : Env} {f : Readings → NetworkView → NetworkView}
    (spared : Spared id t)
    (sound : Sound (id side.other) (t.party side).learned ((t.party side).node.onView env f)) :
    Spared id (t.onView side env f) :=
  spared.act rfl sound (spared.learned side) fun _ asked => asked

end Spared

/-- **One event keeps it.** -/
theorem Spared.step (spared : Spared id t) (allowed : event.allowed t = true)
    (stepped : t.step id event = some t') : Spared id t' := by
  cases event with
  | connect link =>
    cases stepped
    exact { spared with
      learned := fun side c mem => by
        obtain ⟨old, opened, same⟩ := spared.learned side c mem
        exact ⟨old, List.mem_append_left _ opened, same⟩ }
  -- A side learns of a link once, which is what makes its id new to the side.
  | learn side env link endpoint =>
    cases stepped
    unfold PairEvent.allowed at allowed
    rw [Bool.and_eq_true, decide_eq_true_eq, decide_eq_true_eq] at allowed
    refine spared.act rfl ((spared.sound side).addConnection allowed.2) ?_ fun _ asked => asked
    intro c mem
    rcases List.mem_cons.mp mem with rfl | old
    · exact ⟨link, allowed.1, rfl⟩
    · exact spared.learned side c old
  | addAddress side env addr =>
    cases stepped
    exact spared.onView (spared.sound side).addAddress
  | removeAddress side env addr =>
    cases stepped
    exact spared.onView (spared.sound side).removeAddress
  | reconcile side env =>
    obtain ⟨node, returned, rfl⟩ := Option.map_eq_some_iff.mp stepped
    have quiet := Quiet.reconcile returned
    refine spared.act quiet.localPeerId ((spared.sound side).reconcile returned)
      (spared.learned side) fun c asked => ?_
    obtain ⟨new, calls, _⟩ := quiet.calls
    show _ ∈ _
    rw [calls]
    exact List.mem_append_left _ asked
  | close link =>
    cases stepped
    unfold PairEvent.allowed at allowed
    rw [Bool.and_eq_true, Bool.or_eq_true, decide_eq_true_eq, decide_eq_true_eq,
      decide_eq_true_eq] at allowed
    exact { spared with
      closed := fun other mem => by
        rcases List.mem_append.mp mem with old | new
        · exact spared.closed other old
        · obtain rfl := List.mem_singleton.mp new
          exact allowed.2.elim (fun x => ⟨.x, x⟩) fun y => ⟨.y, y⟩ }
  | deliver side env link =>
    cases stepped
    exact spared.onView (spared.sound side).removeConnection

/-- **At most one side asks for closes.** -/
theorem Spared.one_asks (spared : Spared id t) {side : Side} {link : Link}
    (asked : t.AskedBy side link) : ∀ link, ¬ t.AskedBy side.other link := by
  have leads : (t.party side).node.isPruneLeader (id side.other) = true := by
    by_contra follows
    exact (spared.sound side).follows (Bool.eq_false_iff.mpr follows) _ asked
  intro link asked'
  refine (spared.sound side.other).follows (Bool.eq_false_iff.mpr fun leads' => ?_) _ asked'
  unfold isPruneLeader at leads leads'
  rw [decide_eq_true_eq, spared.localPeerId] at leads leads'
  have twice : side.other.other = side := by cases side <;> rfl
  rw [twice] at leads'
  exact lt_asymm leads leads'

/-- **Pruning never disconnects two nodes.** In every run, once a link has been opened there is one
that is not closed and whose close neither side has asked for. -/
theorem pruning_spares_one (id : Side → PeerId) (maxRelays : Side → Nat)
    (run : Run (Pair.step id) (fun _ t event => event.allowed t = true) (.start id maxRelays) h t)
    (connected : t.opened ≠ []) :
    ∃ link ∈ t.opened, link ∉ t.closed ∧ ∀ side, ¬ t.AskedBy side link := by
  have spared : Spared id t := by
    refine run.state_invariant .start ?_
    intro _ t t' event spared allowed stepped
    exact spared.step allowed stepped
  suffices free : ∃ link ∈ t.opened, ∀ side, ¬ t.AskedBy side link by
    obtain ⟨link, opened, notAsked⟩ := free
    refine ⟨link, opened, fun closed => ?_, notAsked⟩
    obtain ⟨side, asked⟩ := spared.closed link closed
    exact notAsked side asked
  -- A side that asks for a close keeps a spare, and the other asks for nothing: one side leads.
  by_cases idle : ∀ side link, ¬ t.AskedBy side link
  · obtain ⟨link, opened⟩ := List.exists_mem_of_ne_nil _ connected
    exact ⟨link, opened, fun side => idle side link⟩
  · simp only [not_forall, not_not] at idle
    obtain ⟨side, link, asked⟩ := idle
    obtain ⟨c, mem, notAsked, _⟩ := (spared.sound side).spared ⟨_, asked⟩
    obtain ⟨spare, opened, rfl⟩ := spared.learned side c mem
    refine ⟨spare, opened, fun s => ?_⟩
    by_cases here : s = side
    · subst here
      exact notAsked
    · have there : s = side.other := by cases s <;> cases side <;> simp_all [Side.other]
      exact there ▸ spared.one_asks asked spare

/-- The calm outside world: its clock never moves. -/
def StillEnv.calm : StillEnv := { Env.calm with still := fun _ _ => rfl }

/-- Two peer ids, in order. -/
def idInOrder : Side → PeerId
  | .x => ⟨[0]⟩
  | .y => ⟨[1]⟩

/-- Two links on two addresses, learned of by the prune leader: it prunes one, which is closed, and
learns of a third on a better address before it hears of the close. -/
def prunedTwice : List PairEvent :=
  let on (n : Byte) := ConnectedPoint.dialer (lanAddr n)
  let link (n : Nat) : Link := ⟨⟨n⟩, ⟨n⟩⟩
  [.connect (link 0), .connect (link 1), .learn .x .calm (link 0) (on 3),
    .learn .x .calm (link 1) (on 2), .reconcile .x .calm, .close (link 0), .connect (link 2),
    .learn .y .calm (link 2) (on 1), .reconcile .y .calm, .learn .x .calm (link 2) (on 1),
    .reconcile .x .calm, .close (link 1), .removeAddress .x .calm (lanAddr 3),
    .deliver .x .calm (link 1), .reconcile .x .calm]

/-- A run that prunes two of three links, with a close still under way at the second pruning. -/
theorem pruning_spares_one_pruned : ∃ t : Pair, t.closed.length = 2 ∧
    ∃ link ∈ t.opened, link ∉ t.closed ∧ ∀ side, ¬ t.AskedBy side link := by
  obtain ⟨t, run, closed⟩ : ∃ t, Run (Pair.step idInOrder) (fun _ t event => event.allowed t = true)
      (.start idInOrder fun _ => 4) prunedTwice t ∧
      (!t.opened.isEmpty && decide (t.closed.length = 2)) = true :=
    Run.exists_of_replay (by decide)
  rw [Bool.and_eq_true, decide_eq_true_eq] at closed
  refine ⟨t, closed.2, pruning_spares_one idInOrder (fun _ => 4) run fun none => ?_⟩
  rw [none] at closed
  cases closed.1

end Saved
