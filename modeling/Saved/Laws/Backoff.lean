import Saved.Laws.ViewRefinement
import Saved.Lib.Keyed

/-!
# Backoff

What the view holds of failures is a table: each known address of each peer has a `Backoff`, and
`Backoffs.apply` says what each operation does to it. `run_backoffs` is the refinement: order,
connections and the clock of a resort are invisible.

`failuresOf` reads off the operations the failures marked for an address since it was inserted or
last succeeded. Their number is the error count, up to its saturation, so the cooldown is a
function of the number and of the last one (`cooldown_schedule`). The count is raised before the
cooldown is computed from it, so the schedule is 2, 4, .., 64 seconds.
-/

namespace Saved

open Saved.Lib

variable {now : Readings} {failed : Instant} {p : PeerId} {a : Multiaddr} {c : ConnectionId}
  {l l' : List AddressMetadata} {info : PeerInfoExt}

/-- The backoff of an address: the failures counted, and the last of them. -/
structure Backoff where
  errCount : Nat
  lastErr : Option Instant
  deriving DecidableEq

namespace Backoff

/-- No failure. -/
def clear : Backoff := ⟨0, none⟩

/-- One failure more. -/
def fail (failed : Instant) (b : Backoff) : Backoff := ⟨min (b.errCount + 1) u32Max, some failed⟩

end Backoff

/-- The backoff of an entry. -/
def AddressMetadata.backoff (m : AddressMetadata) : Backoff := ⟨m.errCount, m.lastErr⟩

/-- The backoff of every peer's known addresses. -/
abbrev Backoffs := PeerId → Multiaddr → Option Backoff

/-- The backoffs of a vector. -/
def backoffsOf (l : List AddressMetadata) : Multiaddr → Option Backoff :=
  valueAt (·.address) AddressMetadata.backoff l

/-! ## The operations on one vector -/

/-- The cooldown of an address is that of its record, of which there is one. -/
theorem backoffsOf_eq_some (wf : Wf l) {b : Backoff} :
    backoffsOf l a = some b ↔ ∃ m ∈ l, m.address = a ∧ m.backoff = b :=
  valueAt_eq_some wf.addresses_nodup

/-- An address that is not known has no cooldown. -/
theorem backoffsOf_eq_none : backoffsOf l a = none ↔ a ∉ l.map (·.address) := valueAt_eq_none

namespace PeerInfoExt

/-- Sorting reads the cooldowns and changes none. -/
theorem resort_backoffs (nodup : (info.addresses.map (·.address)).Nodup) :
    backoffsOf (info.resort now).addresses = backoffsOf info.addresses :=
  valueAt_perm nodup (resort_perm _ _)

/-- What is done to the connections of an entry does not touch its backoff. -/
theorem backoffsOf_modifyFirst {q : AddressMetadata → Bool} {f : AddressMetadata → AddressMetadata}
    (keeps : ∀ m, (f m).address = m.address ∧ (f m).backoff = m.backoff) :
    backoffsOf (modifyFirst q f l) = backoffsOf l :=
  valueAt_columns (map_modifyFirst fun m _ _ => Prod.ext (keeps m).1 (keeps m).2)

/-- Taking a connection out of its record leaves the record's failures. -/
theorem releaseConnection_backoffs :
    backoffsOf (info.releaseConnection c).addresses = backoffsOf info.addresses :=
  backoffsOf_modifyFirst fun _ => ⟨rfl, rfl⟩

/-- Putting a connection into a record leaves the failures. What clears them is the line that
follows it. -/
theorem attachConnection_backoffs :
    backoffsOf (info.attachConnection c a).addresses = backoffsOf info.addresses :=
  backoffsOf_modifyFirst fun m => by split <;> exact ⟨rfl, rfl⟩

/-- The address is cleared if it is known, and no other address is touched. -/
theorem clearBackoff_backoffs :
    backoffsOf (info.clearBackoffOnSuccess a).addresses =
      Function.update (backoffsOf info.addresses) a
        ((backoffsOf info.addresses a).map fun _ => .clear) :=
  valueAt_modifyFirst (fun _ => rfl) fun _ => rfl

/-- **A failure is counted**, for an address that is known. -/
theorem markFailure_backoffs (wf : Wf info.addresses) :
    backoffsOf (info.markFailure failed now a).addresses =
      Function.update (backoffsOf info.addresses) a
        ((backoffsOf info.addresses a).map (.fail failed)) := by
  unfold markFailure
  split
  · rw [resort_backoffs]
    · exact valueAt_modifyFirst (fun _ => rfl) fun _ => rfl
    · refine Eq.mpr (congrArg List.Nodup (map_modifyFirst ?_)) wf.addresses_nodup
      exact fun _ _ _ => rfl
  · next absent =>
    rw [backoffsOf_eq_none.mpr fun known => absent (any_address.mpr known)]
    refine (Function.update_eq_self_iff.mpr ?_).symm
    exact (backoffsOf_eq_none.mpr fun known => absent (any_address.mpr known)).symm

/-- A record that is pushed starts without failures; one that was there keeps its own. -/
theorem ensureAddress_backoffs :
    backoffsOf (info.ensureAddress a).addresses =
      Function.update (backoffsOf info.addresses) a
        (some ((backoffsOf info.addresses a).getD .clear)) := by
  unfold ensureAddress
  split
  · next known =>
    obtain ⟨b, stored⟩ := Option.ne_none_iff_exists'.mp
      fun none => backoffsOf_eq_none.mp none (any_address.mp known)
    refine (Function.update_eq_self_iff.mpr ?_).symm
    rw [stored]
    rfl
  · next absent =>
    have unknown : a ∉ info.addresses.map (·.address) := fun known =>
      absent (any_address.mpr known)
    rw [backoffsOf_eq_none.mpr unknown]
    exact valueAt_concat unknown

/-- **A new address has no failure.** -/
theorem addAddress_backoffs (wf : Wf info.addresses) :
    backoffsOf (info.addAddress now a).2.addresses =
      Function.update (backoffsOf info.addresses) a
        (some ((backoffsOf info.addresses a).getD .clear)) := by
  have ensured : (info.addAddress now a).2 = (info.ensureAddress a).resort now := by
    unfold addAddress ensureAddress
    split <;> rfl
  rw [ensured, resort_backoffs (ensureAddress_register wf).1.addresses_nodup,
    ensureAddress_backoffs]

/-- **A removed address takes its failures with it.** -/
theorem removeAddress_backoffs (wf : Wf info.addresses) :
    backoffsOf (info.removeAddress now a).addresses =
      Function.update (backoffsOf info.addresses) a none := by
  rw [removeAddress, resort_backoffs]
  · exact valueAt_eraseP wf.addresses_nodup
  · exact (List.eraseP_sublist.map _).nodup wf.addresses_nodup

/-- After `add_connection` the remote address is clear, whatever failed on it before. -/
theorem placeConnection_backoffs (wf : Wf info.addresses)
    (untracked : (register info.addresses).slotOf c = none) :
    backoffsOf (info.placeConnection now c a).addresses =
      Function.update (backoffsOf info.addresses) a (some .clear) := by
  obtain ⟨wf₁, opened⟩ := ensureAddress_register (a := a) wf
  obtain ⟨wf₂, _⟩ := attachConnection_register (c := c) (a := a) wf₁
    (by rw [opened]; exact .inl rfl) (by rw [opened]; exact untracked)
  rw [placeConnection, resort_backoffs, clearBackoff_backoffs, attachConnection_backoffs,
    ensureAddress_backoffs, Function.update_self, Function.update_idem]
  · rfl
  · exact ((clearBackoff_records _ a).wf wf₂).addresses_nodup

/-- **A connection clears the failures of its address**, on each of its paths. -/
theorem addConnection_backoffs (wf : Wf info.addresses) :
    backoffsOf (info.addConnection now c a).addresses =
      Function.update (backoffsOf info.addresses) a (some .clear) := by
  unfold addConnection
  split
  · next old found =>
    split
    · obtain ⟨wf₁, out⟩ := releaseConnection_register (c := c) wf
      rw [placeConnection_backoffs wf₁ (by rw [out]; exact Function.update_self ..),
        releaseConnection_backoffs]
    · next same =>
      obtain rfl : old.address = a := not_not.mp same
      have known : backoffsOf info.addresses old.address = some old.backoff :=
        (backoffsOf_eq_some wf).mpr ⟨old, List.mem_of_find?_eq_some found, rfl, rfl⟩
      rw [resort_backoffs, clearBackoff_backoffs, known]
      · rfl
      · exact ((clearBackoff_records info _).wf wf).addresses_nodup
  · next absent =>
    exact placeConnection_backoffs wf (by simp only [register, absent, Option.map_none])

/-- A closed connection is no failure. -/
theorem removeConnection_backoffs (wf : Wf info.addresses) :
    backoffsOf (info.removeConnection now c).addresses = backoffsOf info.addresses := by
  rw [removeConnection, resort_backoffs (releaseConnection_register wf).1.addresses_nodup,
    releaseConnection_backoffs]

end PeerInfoExt

/-! ## The operations of the view -/

/-- **The backoffs after an operation.** -/
def Backoffs.apply (t : Backoffs) : ViewOp → Backoffs
  | .addAddress _ p a => Function.update t p (Function.update (t p) a (some ((t p a).getD .clear)))
  | .removeAddress _ p a => Function.update t p (Function.update (t p) a none)
  | .addConnection _ p _ endpoint =>
    Function.update t p (Function.update (t p) endpoint.remote (some .clear))
  | .markFailure failed _ p a =>
    Function.update t p (Function.update (t p) a ((t p a).map (.fail failed)))
  | .removeConnection _ _ _ => t
  | .setProtocols _ _ => t
  | .setRtt _ _ => t

namespace NetworkView

variable {view view' : NetworkView}

/-- **The backoffs of a view.** -/
def backoffs (view : NetworkView) : Backoffs := fun p => backoffsOf (view.addressesOf p)

/-- Nothing is known at the start, and nothing has failed. -/
theorem backoffs_empty : backoffs {} = fun _ _ => none := rfl

/-- Cooldowns are stored in the vectors and nowhere else. -/
theorem backoffs_congr (same : view'.addressesOf = view.addressesOf) :
    view'.backoffs = view.backoffs := funext fun q => congrArg backoffsOf (congrFun same q)

/-- An operation on one peer updates that peer's cooldowns. -/
theorem backoffs_eq_update {f : Multiaddr → Option Backoff}
    (here : backoffsOf (view'.addressesOf p) = f)
    (other : ∀ q, q ≠ p → view'.addressesOf q = view.addressesOf q) :
    view'.backoffs = Function.update view.backoffs p f := by
  funext q
  by_cases h : q = p
  · subst h
    rw [Function.update_self]
    exact here
  · rw [Function.update_of_ne h, backoffs, backoffs, other q h]

/-- **One operation.** -/
theorem apply_backoffs (wf : view.WellFormed) (op : ViewOp) :
    (view.apply op).backoffs = Backoffs.apply view.backoffs op := by
  cases op with
  | addAddress now p a =>
    obtain ⟨here, other⟩ := addressesOf_entryOrDefault (p := p) view
      fun info => (info.addAddress now a).2
    exact backoffs_eq_update (here ▸ PeerInfoExt.addAddress_backoffs (wf p)) other
  | removeAddress now p a =>
    obtain ⟨here, other⟩ := addressesOf_modify_prune (p := p) view
      (f := fun info => info.removeAddress now a) rfl rfl
    exact backoffs_eq_update (here ▸ PeerInfoExt.removeAddress_backoffs (wf p)) other
  | addConnection now p c endpoint =>
    obtain ⟨here, other⟩ := addressesOf_entryOrDefault (p := p) view
      fun info => info.addConnection now c endpoint.remote
    exact backoffs_eq_update (here ▸ PeerInfoExt.addConnection_backoffs (wf p)) other
  | markFailure failed now p a =>
    obtain ⟨here, other⟩ := addressesOf_modify (p := p) view
      (f := fun info => info.markFailure failed now a) rfl
    exact backoffs_eq_update (here ▸ PeerInfoExt.markFailure_backoffs (wf p)) other
  | removeConnection now p c =>
    obtain ⟨here, other⟩ := addressesOf_modify_prune (p := p) view
      (f := fun info => info.removeConnection now c) rfl rfl
    refine (backoffs_eq_update (here ▸ PeerInfoExt.removeConnection_backoffs (wf p)) other).trans ?_
    exact Function.update_eq_self p _
  | setProtocols p protocols =>
    exact funext fun q => congrArg backoffsOf (setProtocols_addresses view protocols q)
  | setRtt p rtt => exact funext fun q => congrArg backoffsOf (setRtt_addresses view rtt q)

/-- **A sequence of operations.** -/
theorem run_backoffs (ops : List ViewOp) :
    (run ops).backoffs = ops.foldl Backoffs.apply fun _ _ => none := by
  induction ops using List.reverseRecOn with
  | nil => exact backoffs_empty
  | append_singleton ops op ih =>
    have step := apply_backoffs (run_registers ops).1 op
    unfold run at *
    rw [List.foldl_append, List.foldl_append, List.foldl_cons, List.foldl_cons, List.foldl_nil,
      List.foldl_nil, step, ih]

end NetworkView

/-! ## The schedule -/

/-- What an operation does to the failures marked for an address. -/
def failuresStep (p : PeerId) (a : Multiaddr) (times : Option (List Instant)) :
    ViewOp → Option (List Instant)
  | .addAddress _ q b => if q = p ∧ b = a then some (times.getD []) else times
  | .removeAddress _ q b => if q = p ∧ b = a then none else times
  | .addConnection _ q _ endpoint => if q = p ∧ endpoint.remote = a then some [] else times
  | .markFailure failed _ q b => if q = p ∧ b = a then times.map (failed :: ·) else times
  | .removeConnection _ _ _ => times
  | .setProtocols _ _ => times
  | .setRtt _ _ => times

/-- **The failures marked for an address** since it was inserted or last succeeded, the last one
first; `none` while the address is not known. -/
def failuresOf (ops : List ViewOp) (p : PeerId) (a : Multiaddr) : Option (List Instant) :=
  ops.foldl (failuresStep p a) none

/-- The backoff that failures leave. -/
def Backoff.ofFailures (times : List Instant) : Backoff := ⟨min times.length u32Max, times.head?⟩

/-- One more failure at the head of the list is one step of `mark_failure`. -/
theorem Backoff.fail_ofFailures (failed : Instant) (times : List Instant) :
    (ofFailures times).fail failed = ofFailures (failed :: times) := by
  simp only [fail, ofFailures, List.length_cons, List.head?_cons, Backoff.mk.injEq, and_true]
  omega

/-- The table of an operation, at one address. -/
theorem update_update_apply (t : Backoffs) {p q : PeerId} {a b : Multiaddr} {o : Option Backoff} :
    Function.update t q (Function.update (t q) b o) p a = if q = p ∧ b = a then o else t p a := by
  by_cases hq : q = p
  · subst hq
    rw [Function.update_self]
    by_cases hb : b = a
    · subst hb
      rw [Function.update_self, if_pos ⟨rfl, rfl⟩]
    · rw [Function.update_of_ne (Ne.symm hb), if_neg fun both => hb both.2]
  · rw [Function.update_of_ne (Ne.symm hq), if_neg fun both => hq both.1]

/-- **The backoff is that of the failures marked.** -/
theorem NetworkView.backoffs_failuresOf (ops : List ViewOp) (p : PeerId) (a : Multiaddr) :
    (run ops).backoffs p a = (failuresOf ops p a).map .ofFailures := by
  rw [run_backoffs]
  induction ops using List.reverseRecOn with
  | nil => rfl
  | append_singleton ops op ih =>
    unfold failuresOf at *
    rw [List.foldl_append, List.foldl_append, List.foldl_cons, List.foldl_cons, List.foldl_nil,
      List.foldl_nil]
    generalize ops.foldl (failuresStep p a) none = times at *
    generalize ops.foldl Backoffs.apply (fun _ _ => none) = t at *
    cases op with
    | addAddress now q b =>
      rw [Backoffs.apply, failuresStep, update_update_apply]
      split
      · next here =>
        rw [here.1, here.2, ih]
        cases times <;> rfl
      · exact ih
    | removeAddress now q b =>
      rw [Backoffs.apply, failuresStep, update_update_apply]
      split
      · rfl
      · exact ih
    | addConnection now q c endpoint =>
      rw [Backoffs.apply, failuresStep, update_update_apply]
      split
      · rfl
      · exact ih
    | markFailure failed now q b =>
      rw [Backoffs.apply, failuresStep, update_update_apply]
      split
      · next here =>
        rw [here.1, here.2, ih, Option.map_map, Option.map_map]
        exact congrArg (times.map ·) (funext fun ts => Backoff.fail_ofFailures failed ts)
      · exact ih
    | removeConnection | setProtocols | setRtt => exact ih

/-- **The cooldown after a number of failures**: two seconds doubled by each failure but the first,
up to 64. The saturation of the count is out of sight. -/
theorem cooldown_schedule {ops : List ViewOp} {times : List Instant} {t : Instant}
    (failures : failuresOf ops p a = some times) (last : times.head? = some t) :
    ∃ m ∈ (NetworkView.run ops).addressesOf p, m.address = a ∧ ∀ now, m.isInCooldown now = true ↔
      now.durationSince t < Duration.fromSecs (2 ^ min times.length 6) := by
  have stored := NetworkView.backoffs_failuresOf ops p a
  rw [failures] at stored
  obtain ⟨m, hm, isA, backoff⟩ :=
    (backoffsOf_eq_some ((NetworkView.run_registers ops).1 p)).mp stored
  refine ⟨m, hm, isA, fun now => ?_⟩
  simp only [AddressMetadata.backoff, Backoff.ofFailures, last, Backoff.mk.injEq] at backoff
  have clamp : min (min times.length u32Max) 6 = min times.length 6 := by
    rw [min_assoc]
    rfl
  rw [AddressMetadata.isInCooldown, backoff.1, backoff.2, clamp, Nat.one_shiftLeft]
  exact decide_eq_true_iff

/-- **The documented schedule**, 1, 2, 4, .., 64 seconds, is kept after `k` failures exactly from
the seventh on, and before it at the instants outside the second half of the cooldown. -/
theorem backoff_schedule_iff {ops : List ViewOp} {times : List Instant} {k : Nat} {t now : Instant}
    (failures : failuresOf ops p a = some times) (count : times.length = k)
    (last : times.head? = some t) :
    ∃ m ∈ (NetworkView.run ops).addressesOf p, m.address = a ∧
      ((m.isInCooldown now = true ↔
          now.durationSince t < Duration.fromSecs (min (2 ^ (k - 1)) 64)) ↔
        7 ≤ k ∨ now.durationSince t < Duration.fromSecs (2 ^ (k - 1)) ∨
          Duration.fromSecs (2 ^ k) ≤ now.durationSince t) := by
  obtain ⟨m, hm, isA, schedule⟩ := cooldown_schedule failures last
  refine ⟨m, hm, isA, ?_⟩
  rw [schedule now, count]
  have positive : 1 ≤ k := by
    rw [← count]
    exact List.length_pos_iff.mpr fun none => by rw [none] at last; cases last
  unfold Duration.fromSecs
  -- From the seventh failure on both stand at 64 seconds; before it the code's is twice the other.
  by_cases many : 7 ≤ k
  · have capped : 64 ≤ 2 ^ (k - 1) := Nat.pow_le_pow_right (n := 2) (i := 6) (by decide) (by omega)
    simp only [many, true_or, iff_true]
    rw [Nat.min_eq_right (by omega : 6 ≤ k), Nat.min_eq_right capped]
    exact Iff.rfl
  · have uncapped : 2 ^ (k - 1) ≤ 64 :=
      (Nat.pow_le_pow_right (by decide) (by omega : k - 1 ≤ 6))
    have doubled : 2 ^ k = 2 * 2 ^ (k - 1) := by
      rw [← Nat.pow_succ']
      congr 1
      omega
    rw [Nat.min_eq_left (by omega : k ≤ 6), Nat.min_eq_left uncapped, doubled]
    omega

/-- One failure, two seconds later. -/
theorem backoff_schedule_iff_once : ∃ m ∈ (NetworkView.run [.addAddress .zero ⟨[1]⟩ .empty,
      .markFailure 0 .zero ⟨[1]⟩ .empty]).addressesOf ⟨[1]⟩, m.address = .empty ∧
    ((m.isInCooldown 2000000000 = true ↔
        Instant.durationSince 2000000000 0 < Duration.fromSecs (min (2 ^ (1 - 1)) 64)) ↔
      7 ≤ 1 ∨ Instant.durationSince 2000000000 0 < Duration.fromSecs (2 ^ (1 - 1)) ∨
        Duration.fromSecs (2 ^ 1) ≤ Instant.durationSince 2000000000 0) :=
  backoff_schedule_iff (by decide : failuresOf [.addAddress .zero ⟨[1]⟩ .empty,
    .markFailure 0 .zero ⟨[1]⟩ .empty] ⟨[1]⟩ .empty = some [0]) rfl rfl

/-- **After one failure the cooldown lasts two seconds.** -/
theorem first_backoff_doubled : ¬ ∀ (ops : List ViewOp) (p : PeerId) (a : Multiaddr)
    (times : List Instant) (k : Nat) (t now : Instant), failuresOf ops p a = some times →
    times.length = k → times.head? = some t → t ≤ now →
    ∃ m ∈ (NetworkView.run ops).addressesOf p, m.address = a ∧
      (m.isInCooldown now = true ↔
        now.durationSince t < Duration.fromSecs (min (2 ^ (k - 1)) 64)) := by
  intro always
  obtain ⟨m, hm, _, scheduled⟩ := always
    [.addAddress .zero ⟨[1]⟩ .empty, .markFailure 0 .zero ⟨[1]⟩ .empty] ⟨[1]⟩ .empty [0] 1 0
    1000000000 (by decide) rfl rfl (by decide)
  have entry : m = { AddressMetadata.fresh .empty with errCount := 1, lastErr := some 0 } :=
    List.mem_singleton.mp hm
  subst entry
  exact absurd (scheduled.mp (by decide)) (by decide)

end Saved
