import Saved.Lib.Sequential

/-!
# A caller with a script

A caller may have a list of requests to make, one after another: it makes the next when the one
before has been answered, and goes on only after a good answer. Whatever else the server does in
between, and wherever it stops, the requests it answers are then the first of the list, in order
(`scripted_run`), so what the caller can be told is a question about the service alone. The channels
have to keep their promises for this: a request served twice would be answered twice.
-/

namespace Saved.Lib

variable {σ ρ α ν : Type} {service : Service σ ρ α ν} {script : List ρ} {good : α → Bool}
  {h : List (Act ρ α ν)} {s s' : Server σ ρ α} {act : Act ρ α ν} {id n k : Nat} {request : ρ}
  {channels : Channels ρ α ν}

/-- The caller has a good answer. -/
def Caller.satisfied (good : α → Bool) : Caller ρ α → Bool
  | returned _ (.ok answer) => good answer
  | _ => false

/-- **The script is followed**: a call is the next of it, and comes after a good answer to the one
before. -/
def Scripted (script : List ρ) (good : α → Bool) (s : Server σ ρ α) : Act ρ α ν → Prop
  | .call id request =>
    script[id]? = some request ∧ (id = 0 ∨ (s.callers (id - 1)).satisfied good = true)
  | _ => True

instance Scripted.decidable [DecidableEq ρ] (script : List ρ) (good : α → Bool)
    (s : Server σ ρ α) (act : Act ρ α ν) : Decidable (Scripted script good s act) :=
  match act with
  | .call _ _ => inferInstanceAs (Decidable (_ ∧ (_ ∨ _)))
  | .accept _ _ | .refuse _ | .serve _ _ _ | .receive _ _ | .cancel _ | .abandon _ | .turn _
  | .stop => inferInstanceAs (Decidable True)

/-- A caller that is satisfied has an answer: an unanswered call, or one that failed in a channel,
is not. -/
theorem Caller.returned_of_satisfied {caller : Caller ρ α}
    (satisfied : caller.satisfied good = true) :
    ∃ request answer, caller = .returned request (.ok answer) := by
  cases caller with
  | returned request result =>
    cases result with
    | ok answer => exact ⟨request, answer, rfl⟩
    | error fault => cases satisfied
  | _ => cases satisfied

namespace Server

/-- **Where the script stands**: `n` calls have been made, and all but the last of them have
returned; `k` have been answered. -/
structure Follows (script : List ρ) (h : List (Act ρ α ν)) (s : Server σ ρ α) (n k : Nat) :
    Prop where
  idle : ∀ id, s.callers id = .idle ↔ n ≤ id
  past : ∀ id, id + 1 < n → ∃ request answer, s.callers id = .returned request (.ok answer)
  asked : ∀ id request, .call id request ∈ h → script[id]? = some request
  answered : ∀ id, (∃ request answer, .serve id request answer ∈ h) ↔ id < k
  answers : (answers h).map Prod.fst = script.take k
  last : n ≤ k + 1

namespace Follows

/-- At the start the script has made no call and heard no answer. -/
theorem start : Follows script ([] : List (Act ρ α ν)) (start service) 0 0 where
  idle id := ⟨fun _ => Nat.zero_le id, fun _ => rfl⟩
  past _ := nofun
  asked _ _ := nofun
  answered _ := ⟨nofun, nofun⟩
  answers := rfl
  last := Nat.zero_le _

variable (follows : Follows script h s n k)

include follows

/-- A call under way is the last that was made. -/
theorem current (stands : s.callers id = .sending request ∨ s.callers id = .awaiting request ∨
    s.callers id = .gone request) : id + 1 = n := by
  have made : id < n := Nat.lt_of_not_le fun all => by
    have idle := (follows.idle id).mpr all
    rcases stands with caller | caller | caller <;> cases caller.symm.trans idle
  have latest : ¬ id + 1 < n := fun before => by
    obtain ⟨asked, answer, returned⟩ := follows.past id before
    rcases stands with caller | caller | caller <;> cases caller.symm.trans returned
  omega

/-- What the history says of the script stays, when an act makes no call and answers none. -/
theorem heard (silent : act.serves = none) (asks : act.calls = none)
    (idle : ∀ id, s'.callers id = .idle ↔ n ≤ id)
    (past : ∀ id, id + 1 < n → ∃ request answer, s'.callers id = .returned request (.ok answer)) :
    Follows script (h ++ [act]) s' n k where
  idle := idle
  past := past
  asked id request called := by
    rcases List.mem_append.mp called with before | now
    · exact follows.asked id request before
    · rw [← List.mem_singleton.mp now] at asks
      cases asks
  answered id := by
    rw [← follows.answered id]
    refine exists_congr fun request => exists_congr fun answer => ?_
    rw [List.mem_append, List.mem_singleton]
    refine or_iff_left fun now => ?_
    rw [← now] at silent
    cases silent
  answers := by
    unfold Lib.answers
    rw [filterMap_silent silent]
    exact follows.answers
  last := follows.last

/-- An act of the caller of the last call, or of a channel of it. -/
theorem moved {caller : Caller ρ α} (here : id + 1 = n) (silent : act.serves = none)
    (asks : act.calls = none) (busy : caller ≠ .idle) :
    Follows script (h ++ [act]) (s.place id caller) n k := by
  refine follows.heard silent asks (fun other => ?_) fun other before => ?_
  · by_cases same : other = id
    · subst same
      rw [place_callers_self]
      exact ⟨fun idle => absurd idle busy, fun all => by omega⟩
    · rw [place_callers_of_ne same]
      exact follows.idle other
  · rw [place_callers_of_ne (by omega)]
    exact follows.past other before

/-- **The next call.** -/
theorem called (inv : Inv service h s) (idle : s.callers id = .idle)
    (scripted : Scripted script good s (.call id request : Act ρ α ν)) :
    Follows script (h ++ [.call id request]) (s.place id (.sending request)) (n + 1) k := by
  obtain ⟨listed, before⟩ := scripted
  have later := (follows.idle id).mp idle
  have life := inv.life id
  rw [idle] at life
  have waits : k ≤ id := Nat.le_of_not_lt fun given => by
    obtain ⟨asked, answer, served⟩ := (follows.answered id).mpr given
    have served : Act.serve id asked answer ∈ about id h := mem_about.mpr ⟨served, rfl⟩
    rw [(life : about id h = [])] at served
    cases served
  -- The call before has returned, so this one is the next, and everything was answered.
  have next : n = id ∧ k = id := by
    cases id with
    | zero => omega
    | succ last =>
      obtain ⟨asked, answer, returned⟩ := Caller.returned_of_satisfied (before.resolve_left nofun)
      change s.callers last = _ at returned
      have made : last < n := Nat.lt_of_not_le fun all =>
        nomatch returned.symm.trans ((follows.idle last).mpr all)
      have served : Act.serve last asked answer ∈ about last h := by
        rw [(inv.answered returned).1]
        simp
      have given := (follows.answered last).mp ⟨asked, answer, (mem_about.mp served).1⟩
      omega
  obtain ⟨rfl, rfl⟩ := next
  refine ⟨fun other => ?_, fun other past => ?_, fun other asked made => ?_, fun other => ?_, ?_,
    Nat.le_refl _⟩
  · by_cases same : other = k
    · subst same
      rw [place_callers_self]
      exact ⟨nofun, fun all => by omega⟩
    · rw [place_callers_of_ne same, follows.idle]
      omega
  · rw [place_callers_of_ne (by omega)]
    by_cases latest : other + 1 = k
    · subst latest
      exact Caller.returned_of_satisfied (before.resolve_left nofun)
    · exact follows.past other (by omega)
  · rcases List.mem_append.mp made with old | now
    · exact follows.asked other asked old
    · cases List.mem_singleton.mp now
      exact listed
  · rw [← follows.answered other]
    simp
  · unfold Lib.answers
    rw [filterMap_silent rfl]
    exact follows.answers

/-- **The next answer.** -/
theorem served {answer : α} {state : σ} (inv : Inv service h s) (up : s.up = true)
    (taken : .accept id request ∈ h) (once : ∀ other given, Act.serve id other given ∉ h) :
    Follows script (h ++ [.serve id request answer]) { s with state := state } n (k + 1) := by
  have stands := inv.of_taken up taken once
  have here : id + 1 = n := by
    rcases stands with ⟨caller, _⟩ | ⟨caller, _⟩
    · exact follows.current (.inr (.inl caller))
    · exact follows.current (.inr (.inr caller))
  have made : Act.call id request ∈ h := by
    have acts : Act.call id request ∈ about id h := by
      rcases stands with ⟨_, acts⟩ | ⟨_, acts⟩ <;> simp [acts]
    exact (mem_about.mp acts).1
  have waits : k ≤ id := Nat.le_of_not_lt fun given => by
    obtain ⟨other, answer, served⟩ := (follows.answered id).mpr given
    exact once other answer served
  have last := follows.last
  obtain rfl : id = k := by omega
  refine ⟨follows.idle, follows.past, fun other asked called => ?_, fun other => ?_, ?_, by omega⟩
  · exact follows.asked other asked (by simpa using called)
  · constructor
    · rintro ⟨asked, given, served⟩
      rcases List.mem_append.mp served with before | now
      · exact Nat.lt_succ_of_lt ((follows.answered other).mp ⟨asked, given, before⟩)
      · cases List.mem_singleton.mp now
        exact Nat.lt_succ_self _
    · intro below
      rcases Nat.lt_succ_iff_lt_or_eq.mp below with before | rfl
      · obtain ⟨asked, given, served⟩ := (follows.answered other).mpr before
        exact ⟨asked, given, List.mem_append_left _ served⟩
      · exact ⟨request, answer, List.mem_append_right _ (List.mem_singleton_self _)⟩
  · unfold Lib.answers
    rw [filterMap_shown (f := Act.serves) (x := (request, answer)) rfl, List.map_append,
      List.take_add_one, follows.asked id request made]
    exact congrArg (· ++ [request]) follows.answers

/-- **Every act keeps the script's place**, or goes on with it. -/
theorem step (lawful : channels.Lawful) (inv : Inv service h s) (permitted : channels h act)
    (scripted : Scripted script good s act) (steps : Steps service s act s') :
    ∃ n k, Follows script (h ++ [act]) s' n k := by
  cases steps with
  | call idle => exact ⟨n + 1, k, follows.called inv idle scripted⟩
  | serve up answers =>
    exact ⟨n, k + 1, follows.served inv up (lawful.sent permitted) (lawful.once permitted)⟩
  | accept sends | refuse sends | abandonSending sends =>
    exact ⟨n, k, follows.moved (follows.current (.inl sends)) rfl rfl nofun⟩
  | receive awaits | cancel awaits | abandonAwaiting awaits =>
    exact ⟨n, k, follows.moved (follows.current (.inr (.inl awaits))) rfl rfl nofun⟩
  | turn | stop => exact ⟨n, k, follows.heard rfl rfl follows.idle follows.past⟩

end Follows

variable [DecidableEq ρ] [DecidableEq α]

/-- **What is answered is the script**, from its first request on. -/
theorem scripted_run (lawful : channels.Lawful)
    (run : Run (step service) (fun h s act => channels h act ∧ Scripted script good s act)
      (start service) h s) : (answers h).map Prod.fst <+: script := by
  have kept : Inv service h s ∧ ∃ n k, Follows script h s n k := by
    refine run.invariant (I := fun h s => Inv service h s ∧ ∃ n k, Follows script h s n k)
      ⟨.start, 0, 0, .start⟩ ?_
    intro h s s' act ⟨inv, n, k, follows⟩ ⟨permitted, scripted⟩ stepped
    have steps := step_iff.mp stepped
    exact ⟨inv.step lawful permitted steps, follows.step lawful inv permitted scripted steps⟩
  obtain ⟨_, n, k, follows⟩ := kept
  rw [follows.answers]
  exact List.take_prefix k script

end Server

end Saved.Lib
