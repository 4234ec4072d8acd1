import Saved.Laws.Backoff
import Saved.Laws.Freshness
import Saved.Laws.Timeline

/-!
# Failed dials

A dial fails in the call, or later, by an error the swarm reports. The call marks the failure on the
address; the report is printed. `failed_dial_backs_off` is the law of the first kind: from the call
on, in whatever turns come, the address stays known and counts the failure until it connects or mDNS
expires it, so it is in cooldown for its window. Another address is dialed before it, unless a
cooldown ends in the middle of the resort that is to put it behind.
`reported_failure_redials` is a run of the second kind, where the address is dialed again at once.
-/

namespace Saved

open Saved.Lib SavedNetwork

variable {env : Env} {since failures : Nat} {failed : Instant} {p : PeerId} {a : Multiaddr}
  {s t : SavedNetwork} {l : List Moment} {op : ViewOp}

/-- **The clock does not go back**, from one reading to a later one. -/
def Env.Forward (env : Env) : Prop :=
  ∀ n m j k, n < m ∨ n = m ∧ j ≤ k → env.clock n j ≤ env.clock m k

/-- The best address of a peer has failed so often, counting one more failure. -/
def SavedNetwork.failuresAfter (s : SavedNetwork) (p : PeerId) : Nat :=
  ((s.view.addressesOf p).headD {}).errCount + 1

/-- The cooldown after a number of failures. -/
def cooldownOf (failures : Nat) : Nat := Duration.fromSecs (1 <<< min failures 6)

/-- **An address is in backoff for the window of a failure**: it is known, and in cooldown at every
instant of the window. -/
def BacksOff (s : SavedNetwork) (p : PeerId) (a : Multiaddr) (failures : Nat) (failed : Instant) :
    Prop :=
  ∀ now : Instant, now.durationSince failed < cooldownOf failures →
    ∃ m ∈ s.view.addressesOf p, m.address = a ∧ m.isInCooldown now = true

/-- A backoff that counts so many failures at least, the last of them no earlier. -/
def Backoff.Counts (failures : Nat) (failed : Instant) (b : Backoff) : Prop :=
  min failures u32Max ≤ b.errCount ∧ ∃ last, b.lastErr = some last ∧ failed ≤ last

/-- The invariant from a failure on. -/
structure Failed (since : Nat) (failures : Nat) (failed : Instant) (p : PeerId) (a : Multiaddr)
    (s : SavedNetwork) : Prop where
  wf : s.view.WellFormed
  later : since ≤ s.clockReads
  counts : ∃ b, s.view.backoffs p a = some b ∧ b.Counts failures failed

/-- A later failure adds one to the count, and the window that began at the first one has not been
cut short. -/
theorem Backoff.Counts.fail {b : Backoff} {again : Instant} (counts : b.Counts failures failed)
    (later : failed ≤ again) : (b.fail again).Counts failures failed := by
  refine ⟨?_, again, rfl, later⟩
  have enough := counts.1
  show min failures u32Max ≤ min (b.errCount + 1) u32Max
  omega

/-- **The counted failures keep the address in cooldown for their window.** -/
theorem Failed.backsOff (inv : Failed since failures failed p a s) :
    BacksOff s p a failures failed := by
  obtain ⟨b, stored, enough, last, dated, later⟩ := inv.counts
  intro now within
  obtain ⟨m, hm, isA, rfl⟩ := (backoffsOf_eq_some (inv.wf p)).mp stored
  refine ⟨m, hm, isA, ?_⟩
  change m.lastErr = some last at dated
  change min failures u32Max ≤ m.errCount at enough
  rw [AddressMetadata.isInCooldown, dated]
  refine decide_eq_true ?_
  have sooner : now.durationSince last ≤ now.durationSince failed := Nat.sub_le_sub_left later now
  have longer : cooldownOf failures ≤ Duration.fromSecs (1 <<< min m.errCount 6) := by
    unfold cooldownOf Duration.fromSecs
    rw [Nat.one_shiftLeft, Nat.one_shiftLeft]
    refine Nat.mul_le_mul_right _ (Nat.pow_le_pow_right (by decide) ?_)
    have saturates : 6 ≤ u32Max := by decide
    omega
  exact sooner.trans_lt (within.trans_le longer)

/-- The first readings of the times the clock is turned to do not go back either. -/
theorem Env.Forward.first (forward : env.Forward) {n m : Nat} (le : n ≤ m) :
    env.clock n 0 ≤ env.clock m 0 :=
  forward n m 0 0 ((Nat.lt_or_eq_of_le le).imp id fun same => ⟨same, Nat.le_refl 0⟩)

/-- **An operation keeps the count**, unless it forgets the address or connects over it. -/
theorem Failed.after (inv : Failed since failures failed p a s) (forward : env.Forward)
    (dated : failed ≤ env.clock since 0) (timed : op.Timed env s.clockReads)
    (kept : ∀ now, op ≠ .removeAddress now p a)
    (unconnected : ∀ now c endpoint, op = .addConnection now p c endpoint → endpoint.remote ≠ a) :
    Failed since failures failed p a (s.after op) := by
  refine ⟨(NetworkView.apply_registers inv.wf op).1, inv.later.trans (Nat.le_add_right _ _), ?_⟩
  obtain ⟨b, stored, counts⟩ := inv.counts
  show ∃ b, (s.view.apply op).backoffs p a = some b ∧ _
  rw [NetworkView.apply_backoffs inv.wf op]
  -- The two operations that would end the window are excluded; a second failure only lengthens it.
  cases op with
  | addAddress now q b' =>
    rw [Backoffs.apply, update_update_apply]
    split
    · next here =>
      obtain ⟨rfl, rfl⟩ := here
      exact ⟨b, by rw [stored]; rfl, counts⟩
    · exact ⟨b, stored, counts⟩
  | removeAddress now q b' =>
    rw [Backoffs.apply, update_update_apply, if_neg]
    · exact ⟨b, stored, counts⟩
    · rintro ⟨rfl, rfl⟩
      exact kept now rfl
  | addConnection now q c endpoint =>
    rw [Backoffs.apply, update_update_apply, if_neg]
    · exact ⟨b, stored, counts⟩
    · rintro ⟨rfl, remote⟩
      exact unconnected now c endpoint rfl remote
  | markFailure again now q b' =>
    rw [Backoffs.apply, update_update_apply]
    split
    · next here =>
      obtain ⟨rfl, rfl⟩ := here
      have since' : failed ≤ again := timed.1 ▸ dated.trans (forward.first inv.later)
      exact ⟨b.fail again, by rw [stored]; rfl, counts.fail since'⟩
    · exact ⟨b, stored, counts⟩
  | removeConnection | setProtocols | setRtt => exact ⟨b, stored, counts⟩

/-- What the invariant says is about the vectors, so a step that keeps them keeps it. -/
theorem Failed.of_view (inv : Failed since failures failed p a s)
    (same : t.view.addressesOf = s.view.addressesOf) (later : since ≤ t.clockReads) :
    Failed since failures failed p a t := by
  refine ⟨NetworkView.wellFormed_congr same inv.wf, later, ?_⟩
  rw [NetworkView.backoffs_congr same]
  exact inv.counts

/-- **A trace keeps the count**, unless it forgets the address or connects over it. -/
theorem Failed.trace (inv : Failed since failures failed p a s) (forward : env.Forward)
    (dated : failed ≤ env.clock since 0) (trace : Trace (Happens env 0) s l t)
    (kept : ∀ now, .op (.removeAddress now p a) ∉ l)
    (unconnected : ∀ now c endpoint, .op (.addConnection now p c endpoint) ∈ l →
      endpoint.remote ≠ a) : Failed since failures failed p a t := by
  refine trace.invariant (I := Failed since failures failed p a) ?_ ?_ inv
  · intro u v step inv
    cases step with
    | aside aside => exact inv.of_view aside.addresses (aside.clockReads ▸ inv.later)
  · intro u x v mem step inv
    cases step with
    | @op op timed =>
      refine inv.after forward dated timed (fun now same => kept now (same ▸ mem)) ?_
      exact fun now c endpoint same => unconnected now c endpoint (same ▸ mem)
    | @read q _ =>
      -- A read may dial and fail, and then it is a failure of some address, perhaps this one again.
      unfold SavedNetwork.afterRead
      split
      · exact inv
      · split
        · exact inv.of_view rfl inv.later
        · rw [dialFailed_eq]
          have told : Failed since failures failed p a (u.tell [.dial (u.bestAddr q) false]) :=
            inv.of_view rfl inv.later
          exact told.after forward dated ⟨rfl, rfl⟩ (fun _ => nofun) fun _ _ _ => nofun
    | request => exact inv.of_view rfl inv.later
    | settled => exact inv

/-- The invariant holds once a dial has failed in the call. -/
theorem Failed.start (wf : s.view.WellFormed) (dials : s.dialTarget p = some a) :
    Failed s.clockReads (s.failuresAfter p) (env.clock s.clockReads 0) p a
      (s.dialFailed env p) := by
  obtain ⟨known, rfl, _⟩ := dialTarget_eq_some.mp dials
  rw [dialFailed_eq]
  refine ⟨(NetworkView.apply_registers wf _).1, Nat.le_add_right _ _, ?_⟩
  have marked := congrFun₂ (NetworkView.apply_backoffs wf (.markFailure (env.clock s.clockReads 0)
    (env.readings (s.clockReads + 1)) p (s.bestAddr p))) p (s.bestAddr p)
  rw [Backoffs.apply, update_update_apply, if_pos ⟨rfl, rfl⟩] at marked
  unfold failuresAfter bestAddr at *
  cases vector : s.view.addressesOf p with
  | nil => exact absurd vector known
  | cons best rest =>
    have stored : s.view.backoffs p best.address = some best.backoff :=
      (backoffsOf_eq_some (wf p)).mpr ⟨best, vector ▸ List.mem_cons_self, rfl, rfl⟩
    rw [vector, List.headD_cons, stored] at marked
    exact ⟨_, marked, Nat.le_refl _, _, rfl, Nat.le_refl _⟩

/-- **A dial that fails in the call is accounted for.** In every run with a clock that does not go
back, from the failure on and as long as the address has not connected and mDNS has not expired it,
the address is in backoff for its window, after every turn and in every state in which a reconcile
of the peer reads the best address. Such a reconcile does not dial it when the resort before it, in
which no cooldown of the peer's addresses ended, read the clock inside the window, and the peer has
an address that was not in cooldown then. -/
theorem failed_dial_backs_off (env : Env) (me : PeerId) (max : Nat)
    (forward : env.Forward) {h : List Turn} {r : Recorded}
    (run : Run (Recorded.step env) (fun _ _ _ => True) (.start me max) h r)
    {before between : List Moment} {p : PeerId} {u : SavedNetwork} {a : Multiaddr}
    (dials : u.dialTarget p = some a) (failed : env.dialOk u.asked = false)
    (unconnected : ∀ now c endpoint, .op (.addConnection now p c endpoint) ∈ between →
      endpoint.remote ≠ a)
    (kept : ∀ now, .op (.removeAddress now p a) ∉ between) :
    (r.moments = before ++ .read p u :: between →
      BacksOff r.node p a (u.failuresAfter p) (env.clock u.clockReads 0)) ∧
    ∀ turn t rest, r.seen env turn = before ++ .read p u :: (between ++ .read p t :: rest) →
      BacksOff t p a (u.failuresAfter p) (env.clock u.clockReads 0) ∧
        ((env.readings (t.clockReads - 1)).Steady (t.view.addressesOf p) →
          ∀ k, (env.clock (t.clockReads - 1) k).durationSince (env.clock u.clockReads 0) <
              cooldownOf (u.failuresAfter p) →
            (∃ n ∈ t.view.addressesOf p, n.isInCooldown (env.clock (t.clockReads - 1) k) = false) →
            t.dialTarget p ≠ some a) := by
  -- what is read and marked at `u`, and what the trace after it keeps
  have held : ∀ {rest : List Moment} {x : SavedNetwork},
      Trace (Happens env 0) (.start me max) (before ++ .read p u :: rest) x →
      Trace (Happens env 0) (u.dialFailed env p) rest x ∧
        Failed u.clockReads (u.failuresAfter p) (env.clock u.clockReads 0) p a
          (u.dialFailed env p) := by
    intro rest x trace
    obtain ⟨reached, _, tail⟩ := read_reached trace
    unfold SavedNetwork.afterRead at tail
    rw [dials] at tail
    simp only [failed, Bool.false_eq_true, if_false] at tail
    exact ⟨tail, .start (wellFormed_trace reached NetworkView.wellFormed_empty) dials⟩
  have after : ∀ {x : SavedNetwork}, Trace (Happens env 0) (u.dialFailed env p) between x →
      Failed u.clockReads (u.failuresAfter p) (env.clock u.clockReads 0) p a (u.dialFailed env p) →
      Failed u.clockReads (u.failuresAfter p) (env.clock u.clockReads 0) p a x :=
    fun trace inv => inv.trace forward (Nat.le_refl _) trace kept unconnected
  constructor
  · intro moments
    obtain ⟨trace, inv⟩ := held (moments ▸ recorded_trace run)
    exact (after trace inv).backsOff
  · intro turn t rest moments
    obtain ⟨x, whole⟩ := seen_trace run turn
    obtain ⟨trace, inv⟩ := held (moments ▸ whole)
    obtain ⟨reached, ⟨n, _, last, resorted⟩, _⟩ := read_reached trace
    have inv' := after reached inv
    refine ⟨inv'.backsOff, ?_⟩
    rw [last, Nat.add_sub_cancel]
    intro steady k within other target
    -- the cooldowns at one reading of the resort are those at the first, which it sorted by
    have sorted := resorted.sorted steady
    obtain ⟨m, hm, awake⟩ := other
    obtain ⟨b, hb, isA, asleep⟩ := inv'.backsOff _ within
    have awake : m.isInCooldown (env.clock n 0) = false := (steady m hm k).symm.trans awake
    have asleep : b.isInCooldown (env.clock n 0) = true := (steady b hb k).symm.trans asleep
    obtain ⟨known, best, _⟩ := dialTarget_eq_some.mp target
    unfold bestAddr at best
    cases vector : t.view.addressesOf p with
    | nil => exact absurd vector known
    | cons first others =>
      rw [vector] at best sorted hm
      -- the address in backoff would be the first of a sorted vector
      have first' : b = first :=
        (inv'.wf p).eq_of_address hb (vector ▸ List.mem_cons_self) (isA.trans best.symm)
      have calm : first.isInCooldown (env.clock n 0) = false := (sorted.head_le hm awake).1
      rw [← first', asleep] at calm
      cases calm

/-- A record of three reads: the first dials a failing address, and the last is of a vector with an
address that is not in cooldown. -/
def retried : List Moment → Bool
  | [.op _, .read p u, .read _ _, .op (.addAddress _ _ _), .read q t] =>
    decide (p = ⟨[1]⟩) && decide (q = ⟨[1]⟩) && decide (u.asked = 1) &&
      decide (u.failuresAfter ⟨[1]⟩ = 1) && decide (u.dialTarget ⟨[1]⟩ = some (lanAddr 1)) &&
      (t.view.addressesOf ⟨[1]⟩).any fun m => !m.isInCooldown 0
  | _ => false

/-- A dial fails and the next succeeds; a second address is found, and the first is in backoff. -/
theorem failed_dial_backs_off_once : ∃ r t, Run (Recorded.step .firstDialFails) (fun _ _ _ => True)
      (.start ⟨[0]⟩ 4) [foundAt (lanAddr 1)] r ∧
    .read ⟨[1]⟩ t ∈ r.seen .firstDialFails (foundAt (lanAddr 2)) ∧
    BacksOff t ⟨[1]⟩ (lanAddr 1) 1 0 ∧ t.dialTarget ⟨[1]⟩ ≠ some (lanAddr 1) := by
  obtain ⟨r, run, shape⟩ : ∃ r, Run (Recorded.step .firstDialFails) (fun _ _ _ => True)
      (.start ⟨[0]⟩ 4) [foundAt (lanAddr 1)] r ∧
      retried (r.seen .firstDialFails (foundAt (lanAddr 2))) = true :=
    Run.exists_of_replay (by decide)
  unfold retried at shape
  split at shape
  · next o p u q'' v now q' b q t seen =>
    simp only [Bool.and_eq_true, decide_eq_true_eq, List.any_eq_true, Bool.not_eq_true'] at shape
    obtain ⟨⟨⟨⟨⟨rfl, rfl⟩, asked⟩, once⟩, dials⟩, other⟩ := shape
    let between : List Moment := [.read q'' v, .op (.addAddress now q' b)]
    have unconnected : ∀ now c endpoint, .op (.addConnection now ⟨[1]⟩ c endpoint) ∈ between →
        endpoint.remote ≠ lanAddr 1 := by simp [between]
    have kept : ∀ now, .op (.removeAddress now ⟨[1]⟩ (lanAddr 1)) ∉ between := by simp [between]
    have parts : r.seen .firstDialFails (foundAt (lanAddr 2)) =
        [.op o] ++ .read ⟨[1]⟩ u :: (between ++ .read ⟨[1]⟩ t :: []) := seen
    obtain ⟨backsOff, avoids⟩ := (failed_dial_backs_off .firstDialFails ⟨[0]⟩ 4
      (fun _ _ _ _ _ => Nat.le_refl 0) run dials (by rw [asked]; rfl) unconnected kept).2
      (foundAt (lanAddr 2)) t [] parts
    have still : ∀ n, (Env.firstDialFails.readings n).Still := fun _ _ => rfl
    refine ⟨r, t, run, by rw [seen]; simp, once ▸ backsOff, avoids (still _).steady 0 ?_ other⟩
    rw [once]
    show 0 < cooldownOf 1
    decide
  · cases shape

/-- A record in which a dial fails by a report, and its address is dialed again inside the window,
with another address known that is not in cooldown. -/
def redialed : List Moment → Bool
  | [.op _, .read p u, .settled k false, .op (.addAddress _ _ _), .read q t] =>
    decide (p = ⟨[1]⟩) && decide (q = ⟨[1]⟩) && decide (u.asked = k) &&
      decide (u.dialTarget ⟨[1]⟩ = some (lanAddr 1)) &&
      decide (t.dialTarget ⟨[1]⟩ = some (lanAddr 1)) &&
      decide (0 < cooldownOf (u.failuresAfter ⟨[1]⟩)) &&
      (t.view.addressesOf ⟨[1]⟩).any fun m =>
        decide (m.address ≠ lanAddr 1) && !m.isInCooldown 0
  | _ => false

/-- **A failure that the swarm reports is not accounted for**: the address is dialed again, the
clock standing still, with another address known that never failed. -/
theorem reported_failure_redials : ¬ ∀ (env : Env) (me : PeerId) (max : Nat) (h : List Turn)
    (r : Recorded) (turn : Turn) (before between rest : List Moment) (p : PeerId)
    (u t : SavedNetwork) (a : Multiaddr), env.Forward →
    Run (Recorded.step env) (fun _ _ _ => True) (.start me max) h r →
    r.seen env turn = before ++ .read p u :: (between ++ .read p t :: rest) →
    u.dialTarget p = some a → (env.dialOk u.asked = false ∨ .settled u.asked false ∈ between) →
    (∀ now c endpoint, .op (.addConnection now p c endpoint) ∈ between → endpoint.remote ≠ a) →
    (env.clock (t.clockReads - 1) 0).durationSince (env.clock u.clockReads 0) <
      cooldownOf (u.failuresAfter p) →
    (∃ n ∈ t.view.addressesOf p, n.address ≠ a ∧
      n.isInCooldown (env.clock (t.clockReads - 1) 0) = false) →
    t.dialTarget p ≠ some a := by
  intro always
  obtain ⟨r, run, shape⟩ : ∃ r, Run (Recorded.step .calm) (fun _ _ _ => True)
      (.start ⟨[0]⟩ 4) [foundAt (lanAddr 1), ⟨.event (.outgoingConnectionError none), some 1⟩] r ∧
      redialed (r.seen .calm (foundAt (lanAddr 2))) = true := Run.exists_of_replay (by decide)
  unfold redialed at shape
  split at shape
  · next o p u k now q' b q t seen =>
    simp only [Bool.and_eq_true, decide_eq_true_eq, List.any_eq_true, Bool.not_eq_true'] at shape
    obtain ⟨⟨⟨⟨⟨⟨rfl, rfl⟩, rfl⟩, dials⟩, again⟩, within⟩, other⟩ := shape
    exact always .calm ⟨[0]⟩ 4 _ r (foundAt (lanAddr 2)) [.op o]
      [.settled u.asked false, .op (.addAddress now q' b)] [] ⟨[1]⟩ u t (lanAddr 1)
      (fun _ _ _ _ _ => Nat.le_refl 0) run seen dials (.inr List.mem_cons_self) (by simp) within
      other again
  · cases shape

end Saved
