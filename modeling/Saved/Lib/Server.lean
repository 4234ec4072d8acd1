import Mathlib.Logic.Function.Basic
import Saved.Lib.Runs

/-!
# A server behind channels

Any number of callers make requests of one server. A request goes to the server through a channel
that the callers share, and its answer comes back through a channel of its own, which is used once.
In between the server does other work. A caller may stop waiting at any time, and the server may
stop at any time.

The channels are no part of the system. `Channels` is what they let happen after a history of acts,
and `Channels.Lawful` names what is promised of them: what follows about the calls holds for all
channels that keep those promises. A bounded queue with a cell for each answer does
(`lawful_bounded`), so the promises can be kept.
-/

namespace Saved.Lib

/-- What a server does: it serves a request with an answer, and takes turns of other work. -/
structure Service (σ ρ α ν : Type) where
  start : σ
  serve : σ → ρ → Option (α × σ)
  turn : σ → ν → Option σ

/-- Why a call has no answer: the channel did not take its request, or no answer comes back. -/
inductive Fault where
  | unsent
  | dropped
  deriving DecidableEq

/-- Where a caller stands. -/
inductive Caller (ρ α : Type) where
  | idle
  | sending (request : ρ)
  | awaiting (request : ρ)
  | returned (request : ρ) (result : Except Fault α)
  | gone (request : ρ)

/-- What is done, and to which call: the channel accepts its request or refuses it, the server
serves it, the caller receives the answer or learns that none comes. -/
inductive Act (ρ α ν : Type) where
  | call (id : Nat) (request : ρ)
  | accept (id : Nat) (request : ρ)
  | refuse (id : Nat)
  | serve (id : Nat) (request : ρ) (answer : α)
  | receive (id : Nat) (answer : α)
  | cancel (id : Nat)
  | abandon (id : Nat)
  | turn (input : ν)
  | stop

/-- **A server and its callers.** -/
structure Server (σ ρ α : Type) where
  state : σ
  up : Bool
  callers : Nat → Caller ρ α

variable {σ ρ α ν : Type}

/-! ## The channels -/

/-- **What the channels let happen next**, after what has happened. -/
abbrev Channels (ρ α ν : Type) := List (Act ρ α ν) → Act ρ α ν → Prop

/-- **What is promised of the channels.** A request that the server receives was sent to it, and is
received once. Sending fails only when the server has stopped, and does fail when the call is made
after that. What a caller receives was sent back to it, and it learns that no answer comes only when
the server has stopped and had not served the request. -/
structure Channels.Lawful (channels : Channels ρ α ν) : Prop where
  sent : ∀ {h id request answer}, channels h (.serve id request answer) → .accept id request ∈ h
  once : ∀ {h id request answer}, channels h (.serve id request answer) →
    ∀ other given, .serve id other given ∉ h
  refused : ∀ {h id}, channels h (.refuse id) → .stop ∈ h
  closed : ∀ {before after id request}, channels (before ++ .stop :: after) (.accept id request) →
    .call id request ∈ before
  answered : ∀ {h id answer}, channels h (.receive id answer) →
    ∃ request, .serve id request answer ∈ h
  canceled : ∀ {h id}, channels h (.cancel id) →
    .stop ∈ h ∧ ∀ request answer, .serve id request answer ∉ h

/-! ## Acts -/

/-- The request that a caller is sending. -/
def Caller.sends : Caller ρ α → Option ρ
  | sending request => some request
  | _ => none

/-- The request whose answer a caller awaits. -/
def Caller.awaits : Caller ρ α → Option ρ
  | awaiting request => some request
  | _ => none

/-- No call has been made under this identity. -/
def Caller.isIdle : Caller ρ α → Bool
  | idle => true
  | _ => false

/-- The test that the step makes of a caller, as an equation. -/
theorem Caller.isIdle_iff {caller : Caller ρ α} : caller.isIdle = true ↔ caller = .idle := by
  cases caller <;> simp [isIdle]

/-- A request can be accepted, or refused, only from a caller that is sending it. -/
theorem Caller.sends_eq_some {caller : Caller ρ α} {request : ρ} :
    caller.sends = some request ↔ caller = .sending request := by
  cases caller <;> simp [sends]

/-- An answer can be received, or its loss noticed, only by a caller that awaits it. -/
theorem Caller.awaits_eq_some {caller : Caller ρ α} {request : ρ} :
    caller.awaits = some request ↔ caller = .awaiting request := by
  cases caller <;> simp [awaits]

namespace Server

/-- Move a caller. -/
def place (s : Server σ ρ α) (id : Nat) (caller : Caller ρ α) : Server σ ρ α :=
  { s with callers := Function.update s.callers id caller }

/-- The caller that is moved stands where it was put. -/
@[simp] theorem place_callers_self (s : Server σ ρ α) (id : Nat) (caller : Caller ρ α) :
    (s.place id caller).callers id = caller := Function.update_self ..

/-- An act on one call leaves every other caller where it stood. -/
theorem place_callers_of_ne {s : Server σ ρ α} {id other : Nat} {caller : Caller ρ α}
    (apart : other ≠ id) : (s.place id caller).callers other = s.callers other :=
  Function.update_of_ne apart ..

/-- **What one act does**, with one rule for each act and two for a caller that stops waiting. When
the channels let it happen is not said here. -/
inductive Steps (service : Service σ ρ α ν) (s : Server σ ρ α) : Act ρ α ν → Server σ ρ α → Prop
  | call {id : Nat} {request : ρ} : s.callers id = .idle →
      Steps service s (.call id request) (s.place id (.sending request))
  | accept {id : Nat} {request : ρ} : s.callers id = .sending request →
      Steps service s (.accept id request) (s.place id (.awaiting request))
  | refuse {id : Nat} {request : ρ} : s.callers id = .sending request →
      Steps service s (.refuse id) (s.place id (.returned request (.error .unsent)))
  | serve {id : Nat} {request : ρ} {answer : α} {state : σ} : s.up = true →
      service.serve s.state request = some (answer, state) →
      Steps service s (.serve id request answer) { s with state := state }
  | receive {id : Nat} {request : ρ} {answer : α} : s.callers id = .awaiting request →
      Steps service s (.receive id answer) (s.place id (.returned request (.ok answer)))
  | cancel {id : Nat} {request : ρ} : s.callers id = .awaiting request →
      Steps service s (.cancel id) (s.place id (.returned request (.error .dropped)))
  | abandonSending {id : Nat} {request : ρ} : s.callers id = .sending request →
      Steps service s (.abandon id) (s.place id (.gone request))
  | abandonAwaiting {id : Nat} {request : ρ} : s.callers id = .awaiting request →
      Steps service s (.abandon id) (s.place id (.gone request))
  | turn {input : ν} {state : σ} : s.up = true → service.turn s.state input = some state →
      Steps service s (.turn input) { s with state := state }
  | stop : s.up = true → Steps service s .stop { s with up := false }

/-- The server at its start: nobody has called. -/
def start (service : Service σ ρ α ν) : Server σ ρ α where
  state := service.start
  up := true
  callers _ := .idle

variable [DecidableEq ρ] [DecidableEq α]

/-- **One act.** -/
def step (service : Service σ ρ α ν) (s : Server σ ρ α) : Act ρ α ν → Option (Server σ ρ α)
  | .call id request =>
    if (s.callers id).isIdle then some (s.place id (.sending request)) else none
  | .accept id request =>
    if (s.callers id).sends = some request then some (s.place id (.awaiting request)) else none
  | .refuse id =>
    (s.callers id).sends.map fun request => s.place id (.returned request (.error .unsent))
  | .serve _ request answer =>
    if s.up then
      (service.serve s.state request).bind fun exit =>
        if exit.1 = answer then some { s with state := exit.2 } else none
    else none
  | .receive id answer =>
    (s.callers id).awaits.map fun request => s.place id (.returned request (.ok answer))
  | .cancel id =>
    (s.callers id).awaits.map fun request => s.place id (.returned request (.error .dropped))
  | .abandon id =>
    ((s.callers id).sends.or (s.callers id).awaits).map fun request => s.place id (.gone request)
  | .turn input =>
    if s.up then (service.turn s.state input).map fun state => { s with state := state } else none
  | .stop => if s.up then some { s with up := false } else none

/-- A step that is taken is one of the rules: there is one for each act, with the guard under which
the step function takes it. -/
theorem steps_of_step {service : Service σ ρ α ν} {s s' : Server σ ρ α} {act : Act ρ α ν}
    (stepped : s.step service act = some s') : Steps service s act s' := by
  cases act with
  | call id request =>
    obtain ⟨isIdle, same⟩ := Option.ite_none_right_eq_some.mp stepped
    cases same
    exact .call (Caller.isIdle_iff.mp isIdle)
  | accept id request =>
    obtain ⟨sends, same⟩ := Option.ite_none_right_eq_some.mp stepped
    cases same
    exact .accept (Caller.sends_eq_some.mp sends)
  | refuse id =>
    obtain ⟨request, sends, rfl⟩ := Option.map_eq_some_iff.mp stepped
    exact .refuse (Caller.sends_eq_some.mp sends)
  | serve id request answer =>
    obtain ⟨up, served⟩ := Option.ite_none_right_eq_some.mp stepped
    obtain ⟨⟨given, state⟩, answers, checked⟩ := Option.bind_eq_some_iff.mp served
    obtain ⟨rfl, same⟩ := Option.ite_none_right_eq_some.mp checked
    cases same
    exact .serve up answers
  | receive id answer =>
    obtain ⟨request, awaits, rfl⟩ := Option.map_eq_some_iff.mp stepped
    exact .receive (Caller.awaits_eq_some.mp awaits)
  | cancel id =>
    obtain ⟨request, awaits, rfl⟩ := Option.map_eq_some_iff.mp stepped
    exact .cancel (Caller.awaits_eq_some.mp awaits)
  | abandon id =>
    obtain ⟨request, waits, rfl⟩ := Option.map_eq_some_iff.mp stepped
    rcases Option.or_eq_some_iff.mp waits with sends | ⟨_, awaits⟩
    · exact .abandonSending (Caller.sends_eq_some.mp sends)
    · exact .abandonAwaiting (Caller.awaits_eq_some.mp awaits)
  | turn input =>
    obtain ⟨up, turned⟩ := Option.ite_none_right_eq_some.mp stepped
    obtain ⟨state, reached, rfl⟩ := Option.map_eq_some_iff.mp turned
    exact .turn up reached
  | stop =>
    obtain ⟨up, same⟩ := Option.ite_none_right_eq_some.mp stepped
    cases same
    exact .stop up

/-- **The rules are the step function.** Proofs are by the rules, and runs are replayed by the
function. -/
theorem step_iff {service : Service σ ρ α ν} {s s' : Server σ ρ α} {act : Act ρ α ν} :
    s.step service act = some s' ↔ Steps service s act s' := by
  refine ⟨steps_of_step, fun steps => ?_⟩
  cases steps with
  | call idle => simp [step, idle, Caller.isIdle]
  | accept sends => simp [step, sends, Caller.sends]
  | refuse sends => simp [step, sends, Caller.sends]
  | serve up answers => simp [step, up, answers]
  | receive awaits => simp [step, awaits, Caller.awaits]
  | cancel awaits => simp [step, awaits, Caller.awaits]
  | abandonSending sends => simp [step, sends, Caller.sends]
  | abandonAwaiting awaits => simp [step, awaits, Caller.sends, Caller.awaits]
  | turn up turned => simp [step, up, turned]
  | stop up => simp [step, up]

end Server

/-! ## A bounded queue -/

/-- The request that a call makes. -/
def Act.calls : Act ρ α ν → Option (Nat × ρ)
  | call id request => some (id, request)
  | _ => none

/-- The request that the channel takes. -/
def Act.accepts : Act ρ α ν → Option (Nat × ρ)
  | accept id request => some (id, request)
  | _ => none

/-- The answer that the server sends back. -/
def Act.replies : Act ρ α ν → Option (Nat × α)
  | serve id _ answer => some (id, answer)
  | _ => none

/-- The server stops. -/
def Act.stops : Act ρ α ν → Bool
  | stop => true
  | _ => false

/-- The requests that were taken and not served, in the order in which they were taken. -/
def waiting (h : List (Act ρ α ν)) : List (Nat × ρ) :=
  (h.filterMap Act.accepts).filter fun entry =>
    !(h.filterMap Act.replies).any fun reply => decide (reply.1 = entry.1)

/-- **A bounded queue, with a cell for each answer.** The queue takes a request when it has room,
and gives the server the first of those that wait. It takes none from a call made after the server
has stopped. -/
def Channels.bounded [DecidableEq ρ] [DecidableEq α] (capacity : Nat) (h : List (Act ρ α ν)) :
    Act ρ α ν → Bool
  | .accept id request => decide ((waiting h).length < capacity) &&
    (h.takeWhile fun act => !act.stops).any fun act => decide (act.calls = some (id, request))
  | .serve id request _ => decide ((waiting h).head? = some (id, request))
  | .receive id answer => decide ((id, answer) ∈ h.filterMap Act.replies)
  | .refuse _ => h.any Act.stops
  | .cancel id =>
    h.any Act.stops && !(h.filterMap Act.replies).any fun reply => decide (reply.1 = id)
  | .call _ _ | .abandon _ | .turn _ | .stop => true

section Bounded

variable {h : List (Act ρ α ν)} {id : Nat} {request : ρ} {answer : α}

/-- The requests taken by the queue are those of the acts that say so. -/
theorem mem_accepts : (id, request) ∈ h.filterMap Act.accepts ↔ .accept id request ∈ h := by
  refine ⟨fun taken => ?_, fun here => List.mem_filterMap.mpr ⟨_, here, rfl⟩⟩
  obtain ⟨act, here, accepts⟩ := List.mem_filterMap.mp taken
  cases act with
  | accept =>
    cases accepts
    exact here
  | _ => cases accepts

/-- The calls that are answered are those that were served. -/
theorem mem_replies : (id, answer) ∈ h.filterMap Act.replies ↔
    ∃ request, .serve id request answer ∈ h := by
  refine ⟨fun given => ?_, fun ⟨_, here⟩ => List.mem_filterMap.mpr ⟨_, here, rfl⟩⟩
  obtain ⟨act, here, replies⟩ := List.mem_filterMap.mp given
  cases act with
  | serve _ request =>
    cases replies
    exact ⟨request, here⟩
  | _ => cases replies

/-- The stop is found in the history, if there was one. -/
theorem any_stops : h.any Act.stops = true ↔ .stop ∈ h := by
  refine List.any_eq_true.trans ⟨fun ⟨act, here, stops⟩ => ?_, fun here => ⟨_, here, rfl⟩⟩
  cases act with
  | stop => exact here
  | _ => cases stops

/-- No answer to a call has been sent back. -/
theorem unreplied_iff : (!(h.filterMap Act.replies).any fun reply => decide (reply.1 = id)) = true ↔
    ∀ request answer, .serve id request answer ∉ h := by
  rw [Bool.not_eq_true', List.any_eq_false]
  constructor
  · intro none request answer served
    exact none (id, answer) (mem_replies.mpr ⟨request, served⟩) (decide_eq_true rfl)
  · rintro unserved ⟨other, answer⟩ given same
    obtain rfl : other = id := of_decide_eq_true same
    obtain ⟨request, served⟩ := mem_replies.mp given
    exact unserved request answer served

variable [DecidableEq ρ] [DecidableEq α]

/-- **A bounded queue keeps the promises.** -/
theorem lawful_bounded (capacity : Nat) : Channels.Lawful (ρ := ρ) (α := α) (ν := ν)
    fun h act => Channels.bounded capacity h act = true := by
  -- What the server receives is the first that waits: it was taken, and not served.
  have first : ∀ {h : List (Act ρ α ν)} {id request answer},
      Channels.bounded capacity h (.serve id request answer) = true →
      .accept id request ∈ h ∧ ∀ other given, .serve id other given ∉ h := by
    intro h id request answer gives
    have waits := List.mem_of_head? (of_decide_eq_true gives)
    obtain ⟨taken, unserved⟩ := List.mem_filter.mp waits
    exact ⟨mem_accepts.mp taken, unreplied_iff.mp unserved⟩
  refine ⟨fun gives => (first gives).1, fun gives => (first gives).2, any_stops.mp,
    fun {before after id request} takes => ?_,
    fun gives => mem_replies.mp (of_decide_eq_true gives), fun cancels => ?_⟩
  · obtain ⟨_, made⟩ := Bool.and_eq_true_iff.mp takes
    obtain ⟨act, here, calls⟩ := List.any_eq_true.mp made
    have early : act ∈ before := by
      rw [List.takeWhile_append] at here
      split at here
      · rw [List.takeWhile_cons_of_neg (by simp [Act.stops]), List.append_nil] at here
        exact here
      · exact (List.takeWhile_prefix _).subset here
    cases act with
    | call =>
      cases of_decide_eq_true calls
      exact early
    | _ => cases of_decide_eq_true calls
  · obtain ⟨stopped, unserved⟩ := Bool.and_eq_true_iff.mp cancels
    exact ⟨any_stops.mp stopped, unreplied_iff.mp unserved⟩

end Bounded

end Saved.Lib
