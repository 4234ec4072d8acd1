import Mathlib.Data.List.Chain
import Saved.Laws.Process
import Saved.Laws.Settings

/-!
# The targets, as every handle sees them

Handles name and drop targets at the same time, while the events of the swarm come between. The
answers tell each of them whether its own call made the change. Read over all the calls together,
for one peer, the changes alternate: it is named, dropped, named again, and it is a target when the
last change named it (`target_calls_alternate`). So of the calls that name a peer at once, one is
told that it did.
-/

namespace Saved

open Saved.Lib SavedNetwork

variable {env : Env} {me : PeerId} {max : Nat} {s s' t u : SavedNetwork}

/-- **What an answered call did to a peer**: named it a target, or dropped it, or neither. -/
def targetChange (q : PeerId) : SavedNetworkRpc × RpcAnswer → Option Bool
  | (.addTargetPeer t, .ok (.bool true)) => if t = q then some true else none
  | (.removeTargetPeer t, .ok (.bool true)) => if t = q then some false else none
  | _ => none

/-- The last change, to a peer that was no target. -/
def lastChange (changes : List Bool) : Bool := changes.getLastD false

/-- **The changes alternate**, from a peer that was no target. -/
def Alternates (changes : List Bool) : Prop := (false :: changes).IsChain (· ≠ ·)

/-- The last change is the one at the end. -/
@[simp] theorem lastChange_append (changes : List Bool) (b : Bool) :
    lastChange (changes ++ [b]) = b := List.getLastD_concat

/-- A list stays alternating when what is appended differs from its last element. -/
theorem Alternates.append {changes : List Bool} {b : Bool} (alternates : Alternates changes)
    (differs : lastChange changes ≠ b) : Alternates (changes ++ [b]) := by
  refine List.IsChain.append alternates (List.isChain_singleton b) ?_
  intro last here next first
  obtain rfl : lastChange changes = last := by
    rw [List.getLast?_cons, ← List.getLastD_eq_getLast?] at here
    exact Option.some.inj here
  obtain rfl : b = next := Option.some.inj first
  exact differs

/-- **What holds of the targets** after a sequential history of the methods. -/
def Accounts (q : PeerId) (log : List (SavedNetworkRpc × RpcAnswer)) (s : SavedNetwork) : Prop :=
  Alternates (log.filterMap (targetChange q)) ∧
    (q ∈ s.targetPeers ↔ lastChange (log.filterMap (targetChange q)) = true)

namespace Accounts

variable {q : PeerId} {log : List (SavedNetworkRpc × RpcAnswer)} {request : SavedNetworkRpc}
  {answer : RpcAnswer}

/-- A call that changes nothing for a peer. -/
theorem unchanged (accounts : Accounts q log s) (none : targetChange q (request, answer) = none)
    (same : q ∈ s'.targetPeers ↔ q ∈ s.targetPeers) :
    Accounts q (log ++ [(request, answer)]) s' := by
  unfold Accounts
  rw [List.filterMap_append, List.filterMap_cons_none none, List.filterMap_nil, List.append_nil,
    same]
  exact accounts

/-- A call that changes a peer from what it was. -/
theorem changed {b : Bool} (accounts : Accounts q log s)
    (some : targetChange q (request, answer) = some b) (was : q ∈ s.targetPeers ↔ b = false)
    (now : q ∈ s'.targetPeers ↔ b = true) : Accounts q (log ++ [(request, answer)]) s' := by
  unfold Accounts
  rw [List.filterMap_append, List.filterMap_cons_some some, List.filterMap_nil, lastChange_append]
  refine ⟨accounts.1.append ?_, now⟩
  rintro rfl
  have before := was.symm.trans accounts.2
  revert before
  cases lastChange (log.filterMap (targetChange q)) <;> simp

/-- `add_target_peer` answers whether the peer was new. For the peer in question that is a change
exactly when the last one was a removal; other peers see nothing of it. -/
theorem added {target : PeerId} (accounts : Accounts q log s) :
    Accounts q (log ++ [(.addTargetPeer target, .ok (.bool (decide (target ∉ s.targetPeers))))])
      { s with targetPeers := s.targetPeers.insert target } := by
  by_cases here : target = q
  · subst here
    by_cases known : target ∈ s.targetPeers
    · refine accounts.unchanged ?_ ?_
      · simp [targetChange, known]
      · simp [known]
    · refine accounts.changed (b := true) ?_ ?_ ?_
      · simp [targetChange, known]
      · simp [known]
      · simp
  · refine accounts.unchanged ?_ ?_
    · cases decide (target ∉ s.targetPeers) <;> simp [targetChange, here]
    · simp [Ne.symm here]

/-- `remove_target_peer`, likewise. -/
theorem removed {target : PeerId} (accounts : Accounts q log s) :
    Accounts q (log ++ [(.removeTargetPeer target, .ok (.bool (decide (target ∈ s.targetPeers))))])
      { s with targetPeers := s.targetPeers.remove target } := by
  by_cases here : target = q
  · subst here
    by_cases known : target ∈ s.targetPeers
    · refine accounts.changed (b := false) ?_ ?_ ?_
      · simp [targetChange, known]
      · simp [known]
      · simp
    · refine accounts.unchanged ?_ ?_
      · simp [targetChange, known]
      · simp [known]
  · refine accounts.unchanged ?_ ?_
    · cases decide (target ∈ s.targetPeers) <;> simp [targetChange, here]
    · simp [Ne.symm here]

/-- **One call.** -/
theorem served (accounts : Accounts q log s)
    (answers : answerRpc env request s = some (answer, s')) :
    Accounts q (log ++ [(request, answer)]) s' := by
  have returned : dispatchRpc env request s = some s' := by
    rw [← answerRpc_state, answers]
    rfl
  have same : s'.targetPeers = (Input.rpc request).retarget s.targetPeers :=
    step_targetPeers returned
  cases request with
  | addTargetPeer target =>
    cases answers
    exact accounts.added
  | removeTargetPeer target =>
    cases answers
    exact accounts.removed
  | _ => exact accounts.unchanged rfl (by rw [same]; rfl)

/-- Over a whole sequential history, by induction from its start: each request is answered in the
state that the ones before it left. -/
theorem sequential {me : PeerId} {max : Nat}
    (history : (networkService env me max).Sequential log s) : Accounts q log s := by
  induction history with
  | start =>
    have none : q ∉ (SavedNetwork.start me max).targetPeers := HashSet.not_mem_empty q
    exact ⟨List.isChain_singleton _, fun target => absurd target none, nofun⟩
  | serve _ answers ih => exact ih.served answers
  | @turn log s s' event _ turned ih =>
    have same : s'.targetPeers = (Input.event event).retarget s.targetPeers :=
      step_targetPeers turned
    unfold Accounts
    rw [same]
    exact ih

end Accounts

/-- **The calls that name and drop one target alternate.** Whatever the handles do at once, in the
order in which their calls took effect those that were told that they changed the peer name it and
drop it in turn, and it is a target when the last of them named it. Every answer that a call has
returned is in that order. -/
theorem target_calls_alternate (env : Env) (me : PeerId) (max : Nat) (q : PeerId)
    {tokio : Channels SavedNetworkRpc RpcAnswer SwarmEvent} (lawful : tokio.Lawful)
    {h : List ProcessAct} {p : Process}
    (run : Run (Process.step env me max) (fun h _ => tokio h) (Process.start env me max) h p) :
    Alternates ((answers h).filterMap (targetChange q)) ∧
    (q ∈ p.state.targetPeers ↔ lastChange ((answers h).filterMap (targetChange q)) = true) ∧
    ∀ id request answer, p.callers id = .returned request (.ok answer) →
      (request, answer) ∈ answers h := by
  obtain ⟨alternates, last⟩ := Accounts.sequential (q := q) (Server.sequential_run run)
  exact ⟨alternates, last, fun _ _ _ => (Server.inv_run lawful run).mem_answers⟩

/-- Two handles name the same target. -/
theorem target_calls_alternate_pair : ∃ p, Run (Process.step .calm ⟨[0]⟩ 4)
    (fun h _ => boundedChannels h) (Process.start .calm ⟨[0]⟩ 4) sameTarget p ∧
    ⟨[1]⟩ ∈ p.state.targetPeers := by
  obtain ⟨p, run, changes⟩ : ∃ p, Run (Process.step .calm ⟨[0]⟩ 4)
      (fun h _ => boundedChannels h) (Process.start .calm ⟨[0]⟩ 4) sameTarget p ∧
      decide ((answers sameTarget).filterMap (targetChange ⟨[1]⟩) = [true]) = true :=
    Run.exists_of_replay (by decide)
  obtain ⟨_, last, _⟩ := target_calls_alternate .calm ⟨[0]⟩ 4 ⟨[1]⟩
    (lawful_bounded channelCapacity) run
  refine ⟨p, run, last.mpr ?_⟩
  rw [of_decide_eq_true changes]
  rfl

end Saved
