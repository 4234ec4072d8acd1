import Saved.Laws.InFlight

/-!
# A turn and its plan

The visits of a turn are planned on the operations of its input alone, at the start of the turn. The
turn itself dates the operations as the clock goes on, and marks the failures of the dials it makes.
`Planned` relates the node in the turn to the plan. A marked failure can let an address come first
that was not planned, but only where the address that failed was planned too; so in visits that keep
apart it opens no way (`Planned.candidate`), and a planned reconcile dials what was planned and
nothing in flight (`Underway.called`).
-/

namespace Saved

open Saved.Lib SavedNetwork

variable {env : Env} {s u x y : SavedNetwork} {flight : Flight} {p : PeerId} {a : Multiaddr}
  {op : ViewOp} {ops : List ViewOp} {busy visit : List Multiaddr} {now : Readings}

/-! ## Operations, dated at another instant -/

/-- The operation of a handler, dated at another instant. -/
def ViewOp.dated (now : Readings) : ViewOp → ViewOp
  | addAddress _ p a => addAddress now p a
  | removeAddress _ p a => removeAddress now p a
  | addConnection _ p c endpoint => addConnection now p c endpoint
  | removeConnection _ p c => removeConnection now p c
  | op => op

/-- The instant decides the order in the vector, and nothing of what is known or connected. -/
@[simp] theorem Book.apply_dated (book : Book) : book.apply (op.dated now) = book.apply op := by
  cases op <;> rfl

/-- No operation but a failure looks at the clock, as far as the cooldowns go. -/
@[simp] theorem Backoffs.apply_dated (t : Backoffs) : t.apply (op.dated now) = t.apply op := by
  cases op <;> rfl

/-- The operation has a connection stand on an address of a peer. -/
def ViewOp.Connects (op : ViewOp) (p : PeerId) (a : Multiaddr) : Prop :=
  ∃ now c endpoint, op = .addConnection now p c endpoint ∧ endpoint.remote = a

/-- **A connection stands where one stood, or where the operation puts it.** -/
theorem Book.holds_apply {book : Book} (holds : (book.apply op p).Holds a) :
    (book p).Holds a ∨ op.Connects p a := by
  obtain ⟨d, stands⟩ := holds
  rcases Book.slotOf_apply stands with old | ⟨now, endpoint, added, remote⟩
  · exact .inl ⟨d, old⟩
  · exact .inr ⟨now, d, endpoint, added, remote⟩

/-- **An address without a failure after an operation had none before it**, or is new, or was
connected; so a table that knows as many addresses agrees. -/
theorem Backoffs.unfailed_apply {t t' : Backoffs} (stored : t' p a = none ↔ t p a = none)
    (old : ¬ op.Connects p a → t.Unfailed p a → t'.Unfailed p a)
    (unfailed : (t.apply op).Unfailed p a) : (t'.apply op).Unfailed p a := by
  unfold Backoffs.Unfailed at unfailed old ⊢
  cases op with
  | removeConnection | setProtocols | setRtt => exact old (by simp [ViewOp.Connects]) unfailed
  | addAddress now q b =>
    have old' := old (by simp [ViewOp.Connects])
    rw [Backoffs.apply, update_update_apply] at unfailed ⊢
    split
    · next here =>
      obtain ⟨rfl, rfl⟩ := here
      rw [if_pos ⟨rfl, rfl⟩] at unfailed
      -- the addition clears an address that was not known, and keeps the failures of one that was
      cases known : t q b with
      | none => exact ⟨.clear, by rw [stored.mpr known]; rfl, rfl⟩
      | some f =>
        rw [known] at unfailed
        obtain ⟨g, known', calm⟩ := old' ⟨f, known, by simpa using unfailed⟩
        exact ⟨g, by rw [known']; rfl, calm⟩
    · next other =>
      rw [if_neg other] at unfailed
      exact old' unfailed
  | removeAddress now q b =>
    rw [Backoffs.apply, update_update_apply] at unfailed ⊢
    split
    · next here =>
      rw [if_pos here] at unfailed
      exact unfailed
    · next other =>
      rw [if_neg other] at unfailed
      exact old (by simp [ViewOp.Connects]) unfailed
  | addConnection now q c endpoint =>
    rw [Backoffs.apply, update_update_apply] at unfailed ⊢
    split
    · exact ⟨.clear, rfl, rfl⟩
    · next other =>
      rw [if_neg other] at unfailed
      refine old ?_ unfailed
      rintro ⟨now', c', endpoint', same, remote⟩
      cases same
      exact other ⟨rfl, remote⟩
  | markFailure failed now q b =>
    rw [Backoffs.apply, update_update_apply] at unfailed ⊢
    split
    · next here =>
      obtain ⟨rfl, rfl⟩ := here
      rw [if_pos ⟨rfl, rfl⟩] at unfailed
      simp [Backoff.fail] at unfailed
    · next other =>
      rw [if_neg other] at unfailed
      exact old (by simp [ViewOp.Connects]) unfailed

/-! ## The plan -/

/-- **A node in a turn, and the plan.** They agree on what is known and connected. A failure that
the plan does not know is of an address that is busy, and no connection stands on it. -/
structure Planned (x s : SavedNetwork) (busy : List Multiaddr) : Prop where
  wf : x.view.WellFormed
  wf' : s.view.WellFormed
  registers : x.view.registers = s.view.registers
  leads : x.Leads = s.Leads
  unfailed : ∀ p b, s.view.backoffs.Unfailed p b →
    (b ∈ busy → (s.view.registers p).Holds b) → x.view.backoffs.Unfailed p b

namespace Planned

/-- A node is its own plan. -/
theorem refl (wf : s.view.WellFormed) (busy : List Multiaddr) : Planned s s busy :=
  ⟨wf, wf, rfl, rfl, fun _ _ unfailed _ => unfailed⟩

/-- The comparison reads the vectors and who leads. -/
theorem of_view (planned : Planned x s busy) (same : y.view.addressesOf = x.view.addressesOf)
    (leads : y.Leads = x.Leads) : Planned y s busy := by
  refine ⟨NetworkView.wellFormed_congr same planned.wf, planned.wf',
    (registers_congr same).trans planned.registers, leads.trans planned.leads, ?_⟩
  rw [NetworkView.backoffs_congr same]
  exact planned.unfailed

/-- Steps that stand aside change neither. -/
theorem aside (planned : Planned x s busy) (aside : Aside x y) : Planned y s busy := by
  refine planned.of_view aside.addresses ?_
  unfold SavedNetwork.Leads isPruneLeader
  rw [aside.localPeerId]

/-- More may be busy. -/
theorem append (planned : Planned x s busy) (more : List Multiaddr) :
    Planned x s (busy ++ more) :=
  ⟨planned.wf, planned.wf', planned.registers, planned.leads, fun p b unfailed holds =>
    planned.unfailed p b unfailed fun flying => holds (List.mem_append_left more flying)⟩

/-- **The failures open no way to another address.** When a failed address no longer stands before
one, the first of those the plan knows no failure of is itself to be dialed, and busy. -/
theorem candidate (planned : Planned x s busy) (apart : ∀ d, s.Candidate p d → d ∉ busy)
    (may : x.Candidate p a) : s.Candidate p a := by
  obtain ⟨known, idle, occupied⟩ := may
  rw [planned.registers] at known idle occupied
  refine ⟨known, idle, fun held => ?_⟩
  obtain ⟨leads, first⟩ := occupied held
  rw [planned.leads] at leads
  refine ⟨leads, fun b unfailed => ?_⟩
  by_contra behind
  obtain ⟨d, unfailed', least⟩ := NetworkView.exists_first planned.wf' unfailed
  have before : d.rankKey < a.rankKey := (least b unfailed).trans_lt (not_le.mp behind)
  refine before.not_ge (first d (planned.unfailed p d unfailed' fun flying => ?_))
  by_contra idle'
  obtain ⟨m, hm, rfl, _⟩ := (NetworkView.unfailed_iff planned.wf').mp unfailed'
  have known' : m.address ∈ (s.view.registers p).slots := mem_slots.mpr (List.mem_map_of_mem hm)
  exact apart m.address ⟨known', idle', fun _ => ⟨leads, least⟩⟩ flying

/-- A backoff is stored for what is known. -/
theorem stored_iff (planned : Planned x s busy) :
    x.view.backoffs p a = none ↔ s.view.backoffs p a = none := by
  unfold NetworkView.backoffs
  rw [backoffsOf_eq_none, backoffsOf_eq_none]
  have same : a ∈ (x.view.registers p).slots ↔ a ∈ (s.view.registers p).slots := by
    rw [planned.registers]
  exact not_congr same

/-- **An operation is planned, whenever it is made.** -/
theorem after (planned : Planned x s busy) (op : ViewOp) (now : Readings) :
    Planned (x.after (op.dated now)) (s.after op) busy := by
  obtain ⟨wf, registers⟩ := NetworkView.apply_registers planned.wf (op.dated now)
  obtain ⟨wf', registers'⟩ := NetworkView.apply_registers planned.wf' op
  refine ⟨wf, wf', ?_, planned.leads, fun p b unfailed holds => ?_⟩
  · show (x.view.apply (op.dated now)).registers = (s.view.apply op).registers
    rw [registers, registers', planned.registers, Book.apply_dated]
  change (s.view.apply op).backoffs.Unfailed p b at unfailed
  change b ∈ busy → ((s.view.apply op).registers p).Holds b at holds
  show (x.view.apply (op.dated now)).backoffs.Unfailed p b
  rw [NetworkView.apply_backoffs planned.wf, Backoffs.apply_dated]
  rw [NetworkView.apply_backoffs planned.wf'] at unfailed
  rw [registers'] at holds
  refine Backoffs.unfailed_apply planned.stored_iff (fun other calm => ?_) unfailed
  exact planned.unfailed p b calm fun flying =>
    (Book.holds_apply (holds flying)).resolve_right other

/-- **A failure of a busy address is not planned.** -/
theorem dialFailed (planned : Planned x s busy) (env : Env) (dials : x.dialTarget p = some a)
    (flying : a ∈ busy) (idle : ¬ (s.view.registers p).Holds a) :
    Planned (x.dialFailed env p) s busy := by
  obtain ⟨_, rfl, _⟩ := dialTarget_eq_some.mp dials
  rw [dialFailed_eq]
  obtain ⟨wf, registers⟩ := NetworkView.apply_registers planned.wf
    (.markFailure (env.clock x.clockReads 0) (env.readings (x.clockReads + 1)) p (x.bestAddr p))
  refine ⟨wf, planned.wf', registers.trans planned.registers, planned.leads, ?_⟩
  intro q b unfailed holds
  have before := planned.unfailed q b unfailed holds
  show (x.view.apply _).backoffs.Unfailed q b
  rw [NetworkView.apply_backoffs planned.wf]
  unfold Backoffs.Unfailed at before ⊢
  rw [Backoffs.apply, update_update_apply, if_neg]
  · exact before
  · rintro ⟨rfl, rfl⟩
    exact idle (holds flying)

/-- Plan and node make the same operations reconcile. -/
theorem reconciles (planned : Planned x s busy) :
    x.reconciles (op.dated now) = s.reconciles op := by
  cases op with
  | addAddress now' p a =>
    refine Bool.eq_iff_iff.mpr ?_
    show (x.view.addAddress now p a).1 = true ↔ (s.view.addAddress now' p a).1 = true
    rw [NetworkView.addAddress_fst, NetworkView.addAddress_fst, planned.registers]
  | _ => rfl

end Planned

/-! ## A planned reconcile -/

/-- A reconcile that does not call itself makes one read. -/
theorem reads_end {depth : Nat} (ends : (x.dialTarget p).isNone = true ∨
    env.dialOk x.asked = true ∨ x.view.isConnected p = true) :
    reads env p (depth + 1) x = [.read p x] := by
  unfold reads
  rw [if_pos (by simpa [or_assoc] using ends)]

/-- A dial that failed at once, to a peer without a connection, is followed by the reads of the next
call. -/
theorem reads_again {depth : Nat} (target : x.dialTarget p = some a)
    (failed : env.dialOk x.asked = false) (down : x.view.isConnected p = false) :
    reads env p (depth + 1) x = .read p x :: reads env p depth (x.dialFailed env p) := by
  rw [reads, target, failed, down]
  simp only [SavedNetwork.afterRead, target, failed, Option.isNone_some, Bool.or_self,
    Bool.false_eq_true, if_false]

/-- One read dials what was planned, and nothing in flight. -/
theorem clear_read (env : Env) (wf : x.view.WellFormed)
    (ordered : x.Ordered p) (reach : ∀ a, x.Candidate p a → a ∈ visit)
    (apart : ∀ a ∈ visit, a ∉ busy) (flying : ∀ a ∈ flight.map Prod.snd, a ∈ busy) :
    Clear env flight [.read p x] ∧
      ∀ a ∈ (flight.run env [.read p x]).map Prod.snd, a ∈ busy ++ visit := by
  constructor
  · refine ⟨fun q t a same dials there => ?_, trivial⟩
    cases same
    exact apart a (reach a (candidate_of_target wf ordered dials)) (flying a there)
  · intro b there
    change b ∈ (flight.after env (.read p x)).map Prod.snd at there
    simp only [Flight.after] at there
    split at there
    · exact List.mem_append_left visit (flying b there)
    · next a dials =>
      split at there
      · rcases List.mem_cons.mp there with rfl | before
        · exact List.mem_append_right busy (reach b (candidate_of_target wf ordered dials))
        · exact List.mem_append_left visit (flying b before)
      · exact List.mem_append_left visit (flying b there)

/-- **A planned reconcile** dials what was planned, and nothing in flight. -/
theorem clear_reconcile {depth : Nat} {x : SavedNetwork} (planned : Planned x s (busy ++ visit))
    (ordered : AllOrdered (reads env p depth x)) (reach : ∀ a, x.Candidate p a → a ∈ visit)
    (apart : ∀ a ∈ visit, a ∉ busy) (flying : ∀ a ∈ flight.map Prod.snd, a ∈ busy) :
    Clear env flight (reads env p depth x) ∧
      ∀ s', x.reconcileFrom env p depth = some s' → Planned s' s (busy ++ visit) ∧
        ∀ a ∈ (flight.run env (reads env p depth x)).map Prod.snd, a ∈ busy ++ visit := by
  induction depth generalizing x with
  | zero => exact ⟨trivial, fun s' returned => by cases returned⟩
  | succ depth ih =>
    have here : x.Ordered p := ordered p x List.mem_cons_self
    obtain ⟨first, flown⟩ := clear_read env planned.wf here reach apart flying
    obtain ⟨closes, _, call⟩ := reconcileFrom_succ env p depth x
    rw [call]
    cases target : x.dialTarget p with
    | none =>
      rw [reads_end (.inl (by rw [target]; rfl))]
      refine ⟨first, fun s' returned => ?_⟩
      cases returned
      exact ⟨planned.of_view rfl rfl, flown⟩
    | some a =>
      have may := candidate_of_target planned.wf here target
      have failed := planned.dialFailed env target (List.mem_append_right busy (reach a may))
        (planned.registers ▸ may.2.1)
      cases answer : env.dialOk x.asked with
      | true =>
        rw [reads_end (.inr (.inl answer))]
        refine ⟨first, fun s' returned => ?_⟩
        cases returned
        exact ⟨planned.of_view rfl rfl, flown⟩
      | false =>
        cases up : x.view.isConnected p with
        | true =>
          rw [reads_end (.inr (.inr up))]
          refine ⟨first, fun s' returned => ?_⟩
          cases returned
          exact ⟨failed, flown⟩
        | false =>
          -- the peer has no connection, so every known address was planned
          have reach' : ∀ b, (x.dialFailed env p).Candidate p b → b ∈ visit := by
            rintro b ⟨known, idle, _⟩
            rw [failed.registers, ← planned.registers] at known idle
            refine reach b ⟨known, idle, fun occupied => ?_⟩
            rw [← NetworkView.isConnected_iff planned.wf, up] at occupied
            cases occupied
          have ordered' : AllOrdered (reads env p depth (x.dialFailed env p)) :=
            ordered.subset (by rw [reads_again target answer up]; exact List.subset_cons_self _ _)
          have same : flight.after env (.read p x) = flight := by
            simp only [Flight.after, target, answer, Bool.false_eq_true, if_false]
          obtain ⟨clear, ends⟩ := ih failed ordered' reach'
          rw [reads_again target answer up]
          refine ⟨⟨first.1, same.symm ▸ clear⟩, fun s' returned => ?_⟩
          rw [Flight.run, List.foldl_cons, same]
          exact ends s' returned

/-! ## The operations to come -/

/-- **The invariant of the operations to come**: they are planned, and the visits they make keep
apart from the dials in flight. -/
def Underway (x : SavedNetwork) (flight : Flight) (ops : List ViewOp) : Prop :=
  ∃ s busy, Planned x s busy ∧ (∀ a ∈ flight.map Prod.snd, a ∈ busy) ∧ Orderly busy (s.visits ops)

namespace Underway

/-- Before its first operation a turn is where its plan is. -/
theorem start (wf : s.view.WellFormed) (orderly : Orderly (flight.map Prod.snd) (s.visits ops)) :
    Underway s flight ops := ⟨s, _, .refl wf _, fun _ there => there, orderly⟩

/-- Steps that stand aside leave the operations to come as planned. -/
theorem aside (underway : Underway x flight ops) (aside : Aside x y) : Underway y flight ops := by
  obtain ⟨s, busy, planned, flying, orderly⟩ := underway
  exact ⟨s, busy, planned.aside aside, flying, orderly⟩

/-- An operation that makes the node reconcile nothing. -/
theorem quiet (underway : Underway x flight (op :: ops))
    (known : x.reconciles (op.dated now) = false) :
    Underway (x.after (op.dated now)) flight ops := by
  obtain ⟨s, busy, planned, flying, orderly⟩ := underway
  rw [planned.reconciles] at known
  rw [visits, known] at orderly
  exact ⟨s.after op, busy, planned.after op now, flying, orderly⟩

/-- **An operation, and the reconcile it brings about.** -/
theorem called (env : Env) (depth : Nat) (underway : Underway x flight (op :: ops))
    (reconciles : x.reconciles (op.dated now) = true) (aside : Aside (x.after (op.dated now)) u)
    (ordered : AllOrdered (reads env op.peer depth u)) :
    Clear env flight (.op (op.dated now) :: reads env op.peer depth u) ∧
      ∀ s', u.reconcileFrom env op.peer depth = some s' →
        Underway s' (flight.run env (.op (op.dated now) :: reads env op.peer depth u)) ops := by
  obtain ⟨s, busy, planned, flying, orderly⟩ := underway
  rw [planned.reconciles] at reconciles
  rw [visits, reconciles] at orderly
  obtain ⟨apart, later⟩ := orderly
  have planned' : Planned u (s.after op) busy := (planned.after op now).aside aside
  have free : ∀ a, (s.after op).Candidate op.peer a → a ∉ busy := fun a may =>
    apart a ((mem_mayDial planned'.wf').mpr may)
  have reach : ∀ a, u.Candidate op.peer a → a ∈ (s.after op).mayDial op.peer := fun a may =>
    (mem_mayDial planned'.wf').mpr (planned'.candidate free may)
  obtain ⟨clear, ends⟩ := clear_reconcile (planned'.append _) ordered reach apart flying
  refine ⟨clear_op clear, fun s' returned => ?_⟩
  obtain ⟨done, flown⟩ := ends s' returned
  exact ⟨s.after op, _, done, flown, later⟩

end Underway

end Saved
