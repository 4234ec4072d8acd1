import Mathlib.Init

/-!
# Partial computations over a state, and what they ensure

`Proc σ ε α` is the meaning of a method that changes a state `σ`, answers an `α` or fails with an
`ε`, and may not return at all. A failure keeps the state reached: an early return does not undo
what the method did before it.

`Ensures m s Q` is partial correctness: when `m` returns from `s`, by either exit, `Q` holds of the
exit and of the state. The rules are equivalences, one for each way to build a computation, and
they are simp lemmas: rewriting with them runs a straight-line method symbolically and leaves what
has to be proved of its calls. A call is closed by what is known of the callee (`Ensures.mono`).
Where the postcondition is a transitive relation of the two states, `Ensures.seq` and
`Ensures.loop` take it through a sequence and a loop; where it also says what was put out on the
way, `Ensures.collects` does.
-/

namespace Saved.Lib

/-- A computation over `σ`: `none` when it does not return. -/
def Proc (σ ε α : Type) : Type := σ → Option (Except ε α × σ)

namespace Proc

variable {σ ε α β : Type}

instance : Monad (Proc σ ε) where
  pure a := fun s => some (.ok a, s)
  bind m f := fun s =>
    match m s with
    | none => none
    | some (.error e, s') => some (.error e, s')
    | some (.ok a, s') => f a s'

/-- Read the state. -/
def get : Proc σ ε σ := fun s => some (.ok s, s)

/-- Change the state. -/
def update (f : σ → σ) : Proc σ ε Unit := fun s => some (.ok (), f s)

/-- Change the state by a change that may not return. -/
def attempt (f : σ → Option σ) : Proc σ ε Unit := fun s => (f s).map fun s' => (.ok (), s')

/-- Change the state and answer what the change answers. -/
def answer (f : σ → α × σ) : Proc σ ε α := fun s => some (.ok (f s).1, (f s).2)

/-- Fail. -/
def throw (e : ε) : Proc σ ε α := fun s => some (.error e, s)

/-- The state a computation leaves, whichever way it exits. -/
def exec (m : Proc σ ε α) (s : σ) : Option σ := (m s).map Prod.snd

/-- The state a computation leaves when it exits without a failure. -/
def execOk (m : Proc σ ε α) (s : σ) : Option σ :=
  match m s with
  | some (.ok _, s') => some s'
  | _ => none

/-! ## Partial correctness -/

/-- **When `m` returns from `s`, its exit and its state satisfy `Q`.** -/
def Ensures (m : Proc σ ε α) (s : σ) (Q : Except ε α → σ → Prop) : Prop :=
  ∀ r s', m s = some (r, s') → Q r s'

variable {s : σ} {Q R : Except ε α → σ → Prop}

/-- A weaker postcondition. -/
theorem Ensures.mono {m : Proc σ ε α} (h : m.Ensures s R) (imp : ∀ r s', R r s' → Q r s') :
    m.Ensures s Q :=
  fun r s' ran => imp r s' (h r s' ran)

/-- Two postconditions that hold for different reasons. -/
theorem Ensures.and {m : Proc σ ε α} (h : m.Ensures s Q) (h' : m.Ensures s R) :
    m.Ensures s fun r s' => Q r s' ∧ R r s' := fun r s' ran => ⟨h r s' ran, h' r s' ran⟩

/-- Nothing is done: the postcondition has to hold already. -/
@[simp] theorem ensures_pure {a : α} : (pure a : Proc σ ε α).Ensures s Q ↔ Q (.ok a) s := by
  constructor
  · exact fun h => h _ _ rfl
  · rintro h r s' ⟨⟩
    exact h

/-- The failure keeps the state that it is met in. -/
@[simp] theorem ensures_throw {e : ε} : (throw e : Proc σ ε α).Ensures s Q ↔ Q (.error e) s := by
  constructor
  · exact fun h => h _ _ rfl
  · rintro h r s' ⟨⟩
    exact h

/-- Reading the state answers it and leaves it. -/
@[simp] theorem ensures_get {Q : Except ε σ → σ → Prop} :
    (get : Proc σ ε σ).Ensures s Q ↔ Q (.ok s) s := by
  constructor
  · exact fun h => h _ _ rfl
  · rintro h r s' ⟨⟩
    exact h

/-- A change is the state after it; it cannot fail. -/
@[simp] theorem ensures_update {f : σ → σ} {Q : Except ε Unit → σ → Prop} :
    (update f : Proc σ ε Unit).Ensures s Q ↔ Q (.ok ()) (f s) := by
  constructor
  · exact fun h => h _ _ rfl
  · rintro h r s' ⟨⟩
    exact h

/-- A change that may not return has to be followed only where it does. -/
@[simp] theorem ensures_attempt {f : σ → Option σ} {Q : Except ε Unit → σ → Prop} :
    (attempt f : Proc σ ε Unit).Ensures s Q ↔ ∀ s', f s = some s' → Q (.ok ()) s' := by
  constructor
  · exact fun h s' ran => h _ _ (by rw [attempt, ran]; rfl)
  · intro h r s' ran
    obtain ⟨t, ht, heq⟩ := Option.map_eq_some_iff.mp ran
    cases heq
    exact h _ ht

/-- A sequence, by the exit of its first part. The other facts of sequences are read off this one,
so that they need not unfold the monad. -/
theorem bind_apply (m : Proc σ ε α) (f : α → Proc σ ε β) (s : σ) :
    (m >>= f) s = match m s with
      | none => none
      | some (.error e, s') => some (.error e, s')
      | some (.ok a, s') => f a s' := rfl

/-- Sequences may be regrouped, and an empty part of one left out. -/
instance : LawfulMonad (Proc σ ε) := by
  refine LawfulMonad.mk' _ ?_ (fun _ _ => rfl) ?_
  · intro α m
    funext s
    show (m >>= fun a => pure (id a)) s = m s
    rw [bind_apply]
    cases m s with
    | none => rfl
    | some exit =>
      obtain ⟨r, t⟩ := exit
      cases r <;> rfl
  · intro α β γ m f g
    funext s
    rw [bind_apply, bind_apply, bind_apply]
    cases m s with
    | none => rfl
    | some exit =>
      obtain ⟨r, t⟩ := exit
      cases r <;> rfl

/-- A branch with a continuation is a branch of continuations. With it a handler that branches in
its middle can be split where it branches. -/
theorem ite_bind {c : Prop} [Decidable c] (m n : Proc σ ε α) (f : α → Proc σ ε β) :
    (if c then m else n) >>= f = if c then m >>= f else n >>= f := by
  split <;> rfl

/-- Run for the state alone, a change that may not return is that change. -/
theorem exec_attempt (f : σ → Option σ) (s : σ) : (attempt f : Proc σ ε Unit).exec s = f s := by
  unfold exec attempt
  rw [Option.map_map]
  cases f s <;> rfl

/-- A sequence exits without a failure when both of its parts do. -/
theorem execOk_bind (m : Proc σ ε Unit) (f : Unit → Proc σ ε β) (s : σ) :
    (m >>= f).execOk s = (m.execOk s).bind (f ()).execOk := by
  unfold execOk
  rw [bind_apply]
  cases m s with
  | none => rfl
  | some exit =>
    obtain ⟨r, t⟩ := exit
    cases r <;> rfl

/-- The change cannot fail, so it runs to its end whenever it returns. -/
theorem execOk_attempt (f : σ → Option σ) (s : σ) :
    (attempt f : Proc σ ε Unit).execOk s = f s := by
  unfold execOk attempt
  cases f s <;> rfl

/-- A sequence that begins with such a change returns only if the change does. -/
theorem attempt_bind (f : σ → Option σ) (g : Unit → Proc σ ε β) (s : σ) :
    (attempt f >>= g) s = (f s).bind (g ()) := by
  rw [bind_apply, attempt]
  cases f s <;> rfl

/-- A fold of changes is a loop of them. -/
theorem attempt_foldlM (f : σ → β → Option σ) (l : List β) :
    (attempt fun s => l.foldlM f s : Proc σ ε Unit) = l.forM fun b => attempt fun s => f s b := by
  funext s
  induction l generalizing s with
  | nil => rfl
  | cons b bs ih =>
    show ((f s b).bind fun t => bs.foldlM f t).map _ =
      ((attempt fun s => f s b) >>= fun _ => bs.forM _) s
    rw [attempt_bind]
    cases f s b with
    | none => rfl
    | some t => exact ih t

/-- The last change of a method that may not return is made on the state it leaves. -/
theorem exec_attempt_update (f : σ → Option σ) (g : σ → σ) (s : σ) :
    ((attempt f : Proc σ ε Unit) >>= fun _ => update g).exec s = (f s).map g := by
  unfold exec
  rw [bind_apply, attempt]
  cases f s <;> rfl

/-- A postcondition by exits. -/
def Exits (Q : α → σ → Prop) (E : ε → σ → Prop) : Except ε α → σ → Prop
  | .ok a, s => Q a s
  | .error e, s => E e s

/-- The first of the two postconditions is about the exit without a failure. -/
@[simp] theorem exits_ok {Q : α → σ → Prop} {E : ε → σ → Prop} {a : α} :
    Exits Q E (.ok a) s ↔ Q a s := Iff.rfl

/-- The second is about the failure. -/
@[simp] theorem exits_error {Q : α → σ → Prop} {E : ε → σ → Prop} {e : ε} :
    Exits Q E (.error e) s ↔ E e s := Iff.rfl

/-- Of a computation that ran to its end, only what holds of that exit is needed. -/
theorem Ensures.of_execOk {m : Proc σ ε Unit} {P : σ → Prop} {E : ε → σ → Prop} {t : σ}
    (h : m.Ensures s (Exits (fun _ => P) E)) (ran : m.execOk s = some t) : P t := by
  unfold execOk at ran
  split at ran
  · next u hu =>
    cases ran
    exact h _ _ hu
  · cases ran

/-- What holds of both exits holds of that one. -/
theorem ensures_execOk {m : Proc σ ε Unit} {P : σ → Prop} {t : σ}
    (h : m.Ensures s fun _ t => P t) (ran : m.execOk s = some t) : P t := by
  have exits : m.Ensures s (Exits (fun _ => P) fun _ => P) := h.mono fun r u holds => by
    cases r <;> exact holds
  exact exits.of_execOk ran

/-- **The sequence rule.** A failure of the first part is the failure of the whole. -/
@[simp] theorem ensures_bind {m : Proc σ ε α} {f : α → Proc σ ε β} {Q : Except ε β → σ → Prop} :
    (m >>= f).Ensures s Q ↔
      m.Ensures s (Exits (fun a s' => (f a).Ensures s' Q) fun e s' => Q (.error e) s') := by
  constructor
  · rintro h (e | a) s' ran
    · exact h _ _ (by rw [bind_apply, ran])
    · exact fun r s'' ran' => h _ _ (by rw [bind_apply, ran]; exact ran')
  · intro h r s'' ran
    rw [bind_apply] at ran
    split at ran
    · cases ran
    · next e s' hm =>
      cases ran
      exact h _ _ hm
    · next a s' hm => exact h _ _ hm _ _ ran

/-- A branch is followed on either side, with the condition known there. -/
@[simp] theorem ensures_ite {c : Prop} [Decidable c] {m n : Proc σ ε α} :
    (if c then m else n).Ensures s Q ↔ (c → m.Ensures s Q) ∧ (¬ c → n.Ensures s Q) := by
  split <;> simp [*]

/-- **The loop rule.** An invariant that each round keeps holds when the loop has run over a list;
what holds when a round fails holds when the loop does. -/
theorem ensures_forM {I : σ → Prop} {E : ε → σ → Prop} {f : β → Proc σ ε PUnit} {l : List β}
    {s : σ} (start : I s)
    (keeps : ∀ b ∈ l, ∀ s, I s → (f b).Ensures s (Exits (fun _ => I) E)) :
    (l.forM f).Ensures s (Exits (fun _ => I) E) := by
  induction l generalizing s with
  | nil => exact ensures_pure.mpr start
  | cons b bs ih =>
    show (f b >>= fun _ => bs.forM f).Ensures s _
    rw [ensures_bind]
    refine (keeps b List.mem_cons_self s start).mono ?_
    intro r s' exits
    cases r with
    | error e => exact exits
    | ok a => exact ih exits fun c hc => keeps c (List.mem_cons_of_mem _ hc)

section Relations

variable {K : σ → σ → Prop} (trans : ∀ {s t u}, K s t → K t u → K s u)

include trans

/-- **The sequence rule for a relation** between the state before and the state after. -/
theorem Ensures.seq {m : Proc σ ε α} {f : α → Proc σ ε β} {s : σ}
    (first : m.Ensures s fun _ t => K s t)
    (rest : ∀ a t, (f a).Ensures t fun _ u => K t u) :
    (m >>= f).Ensures s fun _ u => K s u := by
  rw [ensures_bind]
  refine first.mono fun r t before => ?_
  cases r with
  | error e => exact before
  | ok a => exact (rest a t).mono fun _ _ later => trans before later

/-- **The loop rule for a relation.** -/
theorem Ensures.loop (refl : ∀ s, K s s) {f : β → Proc σ ε PUnit} {l : List β}
    (round : ∀ b ∈ l, ∀ t, (f b).Ensures t fun _ u => K t u) {s : σ} :
    (l.forM f).Ensures s fun _ u => K s u := by
  induction l generalizing s with
  | nil => exact ensures_pure.mpr (refl s)
  | cons b bs ih =>
    show (f b >>= fun _ => bs.forM f).Ensures s _
    refine seq (K := K) trans (round b List.mem_cons_self s) fun _ _ => ih ?_
    exact fun c later => round c (List.mem_cons_of_mem _ later)

/-- **The fold rule for a relation.** -/
theorem foldlM_keeps (refl : ∀ s, K s s) {f : σ → β → Option σ} {l : List β} {s s' : σ}
    (round : ∀ b ∈ l, ∀ s s', f s b = some s' → K s s') (returned : l.foldlM f s = some s') :
    K s s' := by
  induction l generalizing s with
  | nil =>
    cases returned
    exact refl _
  | cons b bs ih =>
    obtain ⟨t, first, rest⟩ := Option.bind_eq_some_iff.mp returned
    refine trans (round b List.mem_cons_self _ _ first) (ih ?_ rest)
    exact fun b later => round b (List.mem_cons_of_mem _ later)

end Relations

/-- **The loop rule for what is put out.** The rounds of a loop put out, one after another, what the
loop puts out. A round that fails ends it all the same: the rounds that are left would have put out
nothing. -/
theorem Ensures.collects {ω : Type} {K : List ω → σ → σ → Prop} (refl : ∀ s, K [] s s)
    (trans : ∀ {l l' s t u}, K l s t → K l' t u → K (l ++ l') s u) (fails : β → Prop)
    {f : β → Proc σ ε PUnit} {out : β → List ω} {l : List β}
    (order : l.Pairwise fun b c => fails b → out c = [])
    (failed : ∀ b s, (f b).Ensures s (Exits (fun _ _ => True) fun _ _ => fails b))
    (round : ∀ b s, (f b).Ensures s fun _ t => K (out b) s t) {s : σ} :
    (l.forM f).Ensures s fun _ t => K (l.flatMap out) s t := by
  induction l generalizing s with
  | nil => exact ensures_pure.mpr (refl s)
  | cons b bs ih =>
    obtain ⟨last, order⟩ := List.pairwise_cons.mp order
    show (f b >>= fun _ => bs.forM f).Ensures s _
    rw [ensures_bind, List.flatMap_cons]
    refine ((round b s).and (failed b s)).mono fun r t both => ?_
    obtain ⟨first, ended⟩ := both
    cases r with
    | error e =>
      have rest : bs.flatMap out = [] := List.flatMap_eq_nil_iff.mpr fun c later =>
        last c later ended
      rw [exits_error, rest, List.append_nil]
      exact first
    | ok a => exact (ih order).mono fun _ _ later => trans first later

/-- What a computation ensures, read at a state it left. -/
theorem Ensures.of_exec {m : Proc σ ε α} {s' : σ} {P : σ → Prop}
    (h : m.Ensures s fun _ t => P t) (ran : m.exec s = some s') : P s' := by
  obtain ⟨⟨r, t⟩, ht, rfl⟩ := Option.map_eq_some_iff.mp ran
  exact h r t ht

end Proc

end Saved.Lib
