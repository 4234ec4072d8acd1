import Saved.Lib.Calls

/-!
# The answers of a server, one after another

The answers that a server has given, in the order in which it gave them, are those of the service
when its requests come one after another (`sequential_run`), so a law of the service alone is a law
of all its callers together. For that the channels need to promise nothing. That the answer a caller
has is among them is what they promise (`Inv.mem_answers`).
-/

namespace Saved.Lib

variable {σ ρ α ν : Type} {service : Service σ ρ α ν} {h : List (Act ρ α ν)} {s s' : Server σ ρ α}
  {act : Act ρ α ν} {id : Nat} {request : ρ} {answer : α}

/-- **A sequential history** of a service: the requests it served with their answers, and the state
it is in. Any other work may be done between two requests. -/
inductive Service.Sequential (service : Service σ ρ α ν) : List (ρ × α) → σ → Prop
  | start : Sequential service [] service.start
  | serve {log : List (ρ × α)} {state state' : σ} {request : ρ} {answer : α} :
      Sequential service log state → service.serve state request = some (answer, state') →
      Sequential service (log ++ [(request, answer)]) state'
  | turn {log : List (ρ × α)} {state state' : σ} {input : ν} : Sequential service log state →
      service.turn state input = some state' → Sequential service log state'

/-- The request that an act serves, with its answer. -/
def Act.serves : Act ρ α ν → Option (ρ × α)
  | serve _ request answer => some (request, answer)
  | _ => none

/-- **The answers given**, in the order of serving, each with its request. -/
def answers (h : List (Act ρ α ν)) : List (ρ × α) := h.filterMap Act.serves

/-- An answer that was served is among the answers of the history, with its request. -/
theorem mem_answers (served : Act.serve id request answer ∈ h) : (request, answer) ∈ answers h :=
  List.mem_filterMap.mpr ⟨_, served, rfl⟩

namespace Server

/-- The answer a caller has is among them. -/
theorem Inv.mem_answers (inv : Inv service h s)
    (returned : s.callers id = .returned request (.ok answer)) : (request, answer) ∈ answers h := by
  have served : Act.serve id request answer ∈ about id h := by
    rw [(inv.answered returned).1]
    simp
  exact Lib.mem_answers (mem_about.mp served).1

/-- **One act, and the answers**: they stay, or a request is served and its answer is the last. -/
theorem sequential_step (log : service.Sequential (answers h) s.state)
    (steps : Steps service s act s') : service.Sequential (answers (h ++ [act])) s'.state := by
  have still : act.serves = none → service.Sequential (answers (h ++ [act])) s.state :=
    fun silent => by
      unfold answers
      rwa [filterMap_silent silent]
  cases steps with
  | call | accept | refuse | receive | cancel | abandonSending | abandonAwaiting | stop =>
    exact still rfl
  | @serve id request answer state _ gives =>
    unfold answers
    rw [filterMap_shown (f := Act.serves) (x := (request, answer)) rfl]
    exact .serve log gives
  | turn _ turned => exact .turn (still rfl) turned

variable [DecidableEq ρ] [DecidableEq α]
  {ok : List (Act ρ α ν) → Server σ ρ α → Act ρ α ν → Prop}

/-- **The answers of every run are a sequential history** of the service. -/
theorem sequential_run (run : Run (step service) ok (start service) h s) :
    service.Sequential (answers h) s.state :=
  run.invariant (I := fun h s => service.Sequential (answers h) s.state) .start
    fun _ _ _ _ log _ stepped => sequential_step log (step_iff.mp stepped)

end Server

end Saved.Lib
