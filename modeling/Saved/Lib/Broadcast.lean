import Saved.Lib.Runs

/-!
# A receiver of a broadcast channel

Every value sent goes to every receiver of the channel. One that falls behind misses values, and is
told how many; then it goes on with a later one.

The channel is no part of the system. `Delivery` is what it may give a receiver next, and
`Delivery.InOrder` names what is promised: a receiver that has missed nothing gets the next of the
values sent since it subscribed. So what it has got are the first of them, for any channel that
keeps the promise (`Watcher.got`). One that keeps the last values sent does (`inOrder_ring`).
-/

namespace Saved.Lib

variable {σ ι α : Type}

/-- What a receiver gets: a value, or how many values it has missed. -/
inductive Received (α : Type) where
  | ok (value : α)
  | lagged (missed : Nat)
  deriving DecidableEq

/-- The value received. -/
def Received.value : Received α → Option α
  | ok value => some value
  | lagged _ => none

/-- Some values were missed. -/
def Gap (seen : List (Received α)) : Prop := ∃ missed, .lagged missed ∈ seen

/-! ## The channel -/

/-- **What a channel may give a receiver next**, by what was sent since the receiver subscribed and
what it has got of it. -/
abbrev Delivery (α : Type) := List α → List (Received α) → Received α → Prop

/-- **What is promised of the channel**: without a gap, the next value is the next that was sent. -/
structure Delivery.InOrder (delivers : Delivery α) : Prop where
  next : ∀ {sent seen value}, ¬ Gap seen → delivers sent seen (.ok value) →
    sent[seen.length]? = some value

/-- How many of the values sent a receiver has gone past. -/
def Received.passed : Received α → Nat
  | ok _ => 1
  | lagged missed => missed

/-- The position of a receiver in the list of values sent. -/
def position : List (Received α) → Nat
  | [] => 0
  | got :: seen => got.passed + position seen

/-- **A channel that keeps the last values only.** A receiver whose next value is overwritten goes
on with the oldest one kept. -/
def Delivery.ring [DecidableEq α] (capacity : Nat) (sent : List α) (seen : List (Received α))
    (got : Received α) : Bool :=
  if position seen + capacity < sent.length then
    decide (got = .lagged (sent.length - capacity - position seen))
  else decide ((sent[position seen]?).map .ok = some got)

/-- A receiver without a gap has gone past as many values as it has got. -/
theorem position_eq {seen : List (Received α)} (complete : ¬ Gap seen) :
    position seen = seen.length := by
  induction seen with
  | nil => rfl
  | cons got seen ih =>
    have rest : ¬ Gap seen := fun ⟨missed, here⟩ => complete ⟨missed, List.mem_cons_of_mem _ here⟩
    rw [position, ih rest, List.length_cons]
    cases got with
    | ok value => exact Nat.add_comm 1 _
    | lagged missed => exact absurd ⟨missed, List.mem_cons_self⟩ complete

/-- **A ring keeps the promise.** -/
theorem inOrder_ring [DecidableEq α] (capacity : Nat) :
    Delivery.InOrder (α := α) fun sent seen got => Delivery.ring capacity sent seen got = true where
  next {sent seen value} complete given := by
    unfold Delivery.ring at given
    rw [position_eq complete] at given
    split at given
    · cases of_decide_eq_true given
    · obtain ⟨_, here, same⟩ := Option.map_eq_some_iff.mp (of_decide_eq_true given)
      cases same
      exact here

/-! ## A receiver of a system that runs -/

/-- A system, and what a receiver has got. -/
structure Watcher (σ α : Type) where
  state : σ
  seen : List (Received α)

/-- The system takes an input, or the receiver gets something. -/
inductive WatchAct (ι α : Type) where
  | turn (input : ι)
  | recv (got : Received α)

/-- The input of an act. -/
def WatchAct.input : WatchAct ι α → Option ι
  | turn input => some input
  | recv _ => none

namespace Watcher

variable {turn : σ → ι → Option σ} {delivers : Delivery α} {sent : σ → List α} {s : σ}
  {w w' : Watcher σ α}

/-- **One act.** -/
def step (turn : σ → ι → Option σ) (w : Watcher σ α) : WatchAct ι α → Option (Watcher σ α)
  | .turn input => (turn w.state input).map fun state => { w with state := state }
  | .recv got => some { w with seen := w.seen ++ [got] }

/-- A receiver that has just subscribed. -/
def subscribed (s : σ) : Watcher σ α := ⟨s, []⟩

/-- **The receiver gets what the channel gives it**; `sent` is what was sent since it subscribed. -/
def Gets (delivers : Delivery α) (sent : σ → List α) (w : Watcher σ α) : WatchAct ι α → Prop
  | .turn _ => True
  | .recv got => delivers (sent w.state) w.seen got

instance [∀ sent seen got, Decidable (delivers sent seen got)] (sent : σ → List α)
    (w : Watcher σ α) (act : WatchAct ι α) : Decidable (Gets delivers sent w act) :=
  match act with
  | .turn _ => inferInstanceAs (Decidable True)
  | .recv _ => inferInstanceAs (Decidable (delivers _ _ _))

variable {h : List (WatchAct ι α)} {ok : List (WatchAct ι α) → Watcher σ α → WatchAct ι α → Prop}

/-- **A receiver without a gap has got the first of the values sent** since it subscribed, in
order. -/
theorem got (inOrder : delivers.InOrder)
    (grows : ∀ s i s', turn s i = some s' → sent s <+: sent s')
    (run : Run (Watcher.step turn) (fun _ => Gets delivers sent) (subscribed s) h w)
    (complete : ¬ Gap w.seen) :
    w.seen.length ≤ (sent w.state).length ∧
      w.seen.filterMap Received.value = (sent w.state).take w.seen.length := by
  refine run.state_invariant (I := fun w => ¬ Gap w.seen → w.seen.length ≤ (sent w.state).length ∧
    w.seen.filterMap Received.value = (sent w.state).take w.seen.length) ?_ ?_ complete
  · exact fun _ => ⟨Nat.zero_le _, rfl⟩
  · intro _ w w' act before gets stepped complete
    cases act with
    | turn input =>
      -- More is sent behind what was received.
      obtain ⟨state, turned, rfl⟩ := Option.map_eq_some_iff.mp stepped
      obtain ⟨inside, same⟩ := before complete
      obtain ⟨more, grown⟩ := grows _ _ _ turned
      refine ⟨Nat.le_trans inside (grown ▸ (List.prefix_append _ more).length_le), same.trans ?_⟩
      rw [← grown, List.take_append_of_le_length inside]
    | recv got =>
      cases stepped
      have complete' : ¬ Gap w.seen := fun ⟨missed, here⟩ =>
        complete ⟨missed, List.mem_append_left _ here⟩
      obtain ⟨_, same⟩ := before complete'
      cases got with
      | lagged missed =>
        exact absurd ⟨missed, List.mem_append_right _ (List.mem_singleton_self _)⟩ complete
      | ok value =>
        have next := inOrder.next complete' gets
        obtain ⟨inside, rfl⟩ := List.getElem?_eq_some_iff.mp next
        rw [List.length_append, List.length_singleton, List.filterMap_append, same,
          List.take_add_one, next]
        exact ⟨inside, rfl⟩

/-- The system runs as it would without its receiver. -/
theorem run_of_run (run : Run (Watcher.step turn) ok w h w') :
    Run turn (fun _ _ _ => True) w.state (h.filterMap WatchAct.input) w'.state := by
  induction run with
  | start => exact .start
  | @next h w w' act _ _ stepped ih =>
    rw [List.filterMap_append]
    cases act with
    | turn input =>
      obtain ⟨state, turned, rfl⟩ := Option.map_eq_some_iff.mp stepped
      exact .next ih trivial turned
    | recv got =>
      cases stepped
      rw [List.filterMap_cons_none rfl, List.filterMap_nil, List.append_nil]
      exact ih

end Watcher

end Saved.Lib
