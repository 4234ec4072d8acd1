import Saved.Lib.Server

/-!
# What becomes of a call

Each act names the call it is about, so what happened to one call is the list of the acts about it
(`about`), and `Life` gives that list for every place a caller can stand in. `Server.Inv` adds what
the promises of the channels make of it, and the laws of a call are read off it: a call that has its
answer was served once, between the call and the return, and by the state that the work before had
led to; a call that failed was not served, and never will be; and a call made after another returned
is served after it.
-/

namespace Saved.Lib

variable {σ ρ α ν : Type}

/-! ## What a history says -/

/-- The call an act is about. -/
def Act.id : Act ρ α ν → Option Nat
  | call id _ | accept id _ | refuse id | serve id _ _ | receive id _ | cancel id | abandon id =>
    some id
  | turn _ | stop => none

/-- **What happened to a call**, in order. -/
def about (id : Nat) (h : List (Act ρ α ν)) : List (Act ρ α ν) :=
  h.filter fun act => decide (act.id = some id)

/-- What an act has the server do. -/
def Act.work : Act ρ α ν → Option (ρ ⊕ ν)
  | serve _ request _ => some (.inl request)
  | turn input => some (.inr input)
  | _ => none

/-- One piece of work. -/
def Service.step (service : Service σ ρ α ν) (state : σ) : ρ ⊕ ν → Option σ
  | .inl request => (service.serve state request).map Prod.snd
  | .inr input => service.turn state input

/-- **The server was led to a state by the work of a history.** -/
def Service.Led (service : Service σ ρ α ν) (h : List (Act ρ α ν)) (state : σ) : Prop :=
  Run service.step (fun _ _ _ => True) service.start (h.filterMap Act.work) state

/-- **A request was served with an answer**: at one act, and by the state the work before led to. -/
def Service.Served (service : Service σ ρ α ν) (h : List (Act ρ α ν)) (id : Nat) (request : ρ)
    (answer : α) : Prop :=
  ∃ before after state state', h = before ++ .serve id request answer :: after ∧
    service.Led before state ∧ service.serve state request = some (answer, state')

/-- **The acts about a call**, by where its caller stands. A request that was taken may have been
served without its caller having the answer, or being there to have it. -/
def Life (id : Nat) (acts : List (Act ρ α ν)) : Caller ρ α → Prop
  | .idle => acts = []
  | .sending request => acts = [.call id request]
  | .awaiting request => acts = [.call id request, .accept id request] ∨
    ∃ answer, acts = [.call id request, .accept id request, .serve id request answer]
  | .returned request (.ok answer) => acts =
    [.call id request, .accept id request, .serve id request answer, .receive id answer]
  | .returned request (.error .unsent) => acts = [.call id request, .refuse id]
  | .returned request (.error .dropped) => acts =
    [.call id request, .accept id request, .cancel id]
  | .gone request => acts = [.call id request, .abandon id] ∨
    acts = [.call id request, .accept id request, .abandon id] ∨
    ∃ answer, acts =
        [.call id request, .accept id request, .serve id request answer, .abandon id] ∨
      acts = [.call id request, .accept id request, .abandon id, .serve id request answer]

/-- **What holds of a server and its history**, when the channels keep their promises. -/
structure Server.Inv (service : Service σ ρ α ν) (h : List (Act ρ α ν)) (s : Server σ ρ α) :
    Prop where
  led : service.Led h s.state
  life : ∀ id, Life id (about id h) (s.callers id)
  down : s.up = false ↔ .stop ∈ h
  faulty : ∀ id request fault, s.callers id = .returned request (.error fault) → .stop ∈ h
  served : ∀ id request answer, .serve id request answer ∈ h → service.Served h id request answer

variable {service : Service σ ρ α ν} {h more : List (Act ρ α ν)} {s s' : Server σ ρ α}
  {act : Act ρ α ν} {id : Nat} {request : ρ} {answer : α}

/-- The acts about a call, among those of the history. -/
theorem mem_about : act ∈ about id h ↔ act ∈ h ∧ act.id = some id := by
  rw [about, List.mem_filter, decide_eq_true_iff]

/-- They grow as the history does. -/
theorem about_append (id : Nat) (h more : List (Act ρ α ν)) :
    about id (h ++ more) = about id h ++ about id more := List.filter_append ..

/-- An act of the call is the last of them, -/
theorem about_append_self (here : act.id = some id) :
    about id (h ++ [act]) = about id h ++ [act] := by
  rw [about_append, about, about, List.filter_cons_of_pos (by simpa using here), List.filter_nil]

/-- and an act of another call, or of none, is not among them. -/
theorem about_append_apart (apart : act.id ≠ some id) : about id (h ++ [act]) = about id h := by
  rw [about_append, about, about, List.filter_cons_of_neg (by simpa using apart), List.filter_nil,
    List.append_nil]

/-- An act of the call splits them where it splits the history. -/
theorem about_split (id : Nat) {before after : List (Act ρ α ν)} (here : act.id = some id) :
    about id (before ++ act :: after) = about id before ++ act :: about id after := by
  rw [about_append, about, about, List.filter_cons_of_pos (by simpa using here)]
  rfl

/-- What was served stays served, whatever comes later: the state it was served in is that of the
inputs before it. -/
theorem Service.Served.append (served : service.Served h id request answer)
    (more : List (Act ρ α ν)) : service.Served (h ++ more) id request answer := by
  obtain ⟨before, after, state, state', rfl, led, answers⟩ := served
  exact ⟨before, after ++ more, state, state', by simp, led, answers⟩

/-- An act that shows nothing leaves what is collected of a history. -/
theorem filterMap_silent {β : Type} {f : Act ρ α ν → Option β} (silent : f act = none) :
    (h ++ [act]).filterMap f = h.filterMap f := by
  rw [List.filterMap_append, List.filterMap_cons_none silent, List.filterMap_nil, List.append_nil]

/-- An act that shows something puts it behind. -/
theorem filterMap_shown {β : Type} {f : Act ρ α ν → Option β} {x : β} (shown : f act = some x) :
    (h ++ [act]).filterMap f = h.filterMap f ++ [x] := by
  rw [List.filterMap_append, List.filterMap_cons_some shown, List.filterMap_nil]

/-- An act that has the server do nothing. -/
theorem Service.Led.idle {state : σ} (led : service.Led h state) (idle : act.work = none) :
    service.Led (h ++ [act]) state := by
  unfold Led
  rwa [filterMap_silent idle]

/-- One more piece of work leads the service one step further. -/
theorem Service.Led.worked {state state' : σ} {work : ρ ⊕ ν} (led : service.Led h state)
    (works : act.work = some work) (stepped : service.step state work = some state') :
    service.Led (h ++ [act]) state' := by
  unfold Led
  rw [filterMap_shown works]
  exact .next led trivial stepped

/-- A call is made once, before anything else happens to it. -/
theorem Life.begins {acts before after : List (Act ρ α ν)} {caller : Caller ρ α}
    (life : Life id acts caller) (split : acts = before ++ .call id request :: after) :
    before = [] := by
  have shape : acts = [] ∨ ∃ first rest, acts = first :: rest ∧ Act.call id request ∉ rest := by
    cases caller with
    | idle => exact .inl life
    | sending asked => exact .inr ⟨_, _, life, by simp⟩
    | awaiting asked => rcases life with acts | ⟨_, acts⟩ <;> exact .inr ⟨_, _, acts, by simp⟩
    | returned asked result => rcases result with (_ | _) | _ <;> exact .inr ⟨_, _, life, by simp⟩
    | gone asked =>
      rcases life with acts | acts | ⟨_, acts | acts⟩ <;> exact .inr ⟨_, _, acts, by simp⟩
  cases before with
  | nil => rfl
  | cons first more =>
    rcases shape with none | ⟨_, rest, same, once⟩
    · rw [none] at split
      cases split
    · rw [same, List.cons_append] at split
      rw [(List.cons.inj split).2] at once
      simp at once

namespace Server

/-- At the start nothing has been done and no caller has called. -/
theorem Inv.start : Inv service [] (start service) where
  led := .start
  life _ := rfl
  down := ⟨nofun, nofun⟩
  faulty _ _ _ := nofun
  served _ _ _ := nofun

/-- **A request that was taken and not served**: its caller awaits the answer, or is gone. -/
theorem Inv.of_taken (inv : Inv service h s) (up : s.up = true) (taken : .accept id request ∈ h)
    (unserved : ∀ other given, Act.serve id other given ∉ h) :
    s.callers id = .awaiting request ∧ about id h = [.call id request, .accept id request] ∨
      s.callers id = .gone request ∧
        about id h = [.call id request, .accept id request, .abandon id] := by
  have taken : .accept id request ∈ about id h := mem_about.mpr ⟨taken, rfl⟩
  have unserved : ∀ other given, Act.serve id other given ∉ about id h := fun other given served =>
    unserved other given (mem_about.mp served).1
  have life := inv.life id
  -- The caller's stand fixes what happened; most are impossible of a call taken and not served.
  cases caller : s.callers id with
  | idle =>
    rw [caller] at life
    rw [(life : about id h = [])] at taken
    cases taken
  | sending other =>
    rw [caller] at life
    rw [(life : about id h = _)] at taken
    simp at taken
  | awaiting other =>
    rw [caller] at life
    rcases life with acts | ⟨given, acts⟩
    · rw [acts] at taken
      obtain rfl : request = other := by simpa using taken
      exact .inl ⟨rfl, acts⟩
    · exact absurd (by simp [acts]) (unserved other given)
  | returned other result =>
    rw [caller] at life
    rcases result with fault | given
    · have stopped := inv.down.mpr (inv.faulty id other fault caller)
      exact absurd (stopped.symm.trans up) nofun
    · exact absurd (by rw [(life : about id h = _)]; simp) (unserved other given)
  | gone other =>
    rw [caller] at life
    rcases life with acts | acts | ⟨given, acts | acts⟩
    · rw [acts] at taken
      simp at taken
    · rw [acts] at taken
      obtain rfl : request = other := by simpa using taken
      exact .inr ⟨rfl, acts⟩
    · exact absurd (by simp [acts]) (unserved other given)
    · exact absurd (by simp [acts]) (unserved other given)

/-- **An act of a caller or its channel** keeps the invariant when it goes on with the life of its
call, and a call fails only when the server has stopped. -/
theorem Inv.placed {caller : Caller ρ α} (inv : Inv service h s) (here : act.id = some id)
    (unserved : act.replies = none) (idle : act.work = none)
    (faulty : ∀ request fault, caller = .returned request (.error fault) → .stop ∈ h)
    (life : Life id (about id h ++ [act]) caller) :
    Inv service (h ++ [act]) (s.place id caller) where
  led := inv.led.idle idle
  life other := by
    by_cases same : other = id
    · subst same
      rw [about_append_self here, place_callers_self]
      exact life
    · have apart : act.id ≠ some other := fun eq => same (Option.some.inj (eq.symm.trans here))
      rw [about_append_apart apart, place_callers_of_ne same]
      exact inv.life other
  down := by
    have unstopped : Act.stop ≠ act := by
      rintro rfl
      cases here
    rw [List.mem_append, List.mem_singleton, or_iff_left unstopped]
    exact inv.down
  faulty other request fault result := by
    refine List.mem_append_left _ ?_
    by_cases same : other = id
    · subst same
      rw [place_callers_self] at result
      exact faulty request fault result
    · rw [place_callers_of_ne same] at result
      exact inv.faulty other request fault result
  served other request answer given := by
    refine (inv.served other request answer ?_).append _
    rcases List.mem_append.mp given with before | now
    · exact before
    · rw [← List.mem_singleton.mp now] at unserved
      cases unserved

/-- **Serving** goes on with the life of a call whose request was taken and not served. -/
theorem Inv.done {state : σ} (inv : Inv service h s) (up : s.up = true)
    (taken : .accept id request ∈ h) (once : ∀ other given, Act.serve id other given ∉ h)
    (answers : service.serve s.state request = some (answer, state)) :
    Inv service (h ++ [.serve id request answer]) { s with state := state } where
  led := by
    refine inv.led.worked rfl (?_ : service.step s.state (.inl request) = some state)
    rw [Service.step, answers]
    rfl
  life other := by
    by_cases same : other = id
    · subst same
      rw [about_append_self rfl]
      show Life other _ (s.callers other)
      rcases inv.of_taken up taken once with ⟨caller, acts⟩ | ⟨caller, acts⟩
      · rw [caller, acts]
        exact .inr ⟨answer, rfl⟩
      · rw [caller, acts]
        exact .inr (.inr ⟨answer, .inr rfl⟩)
    · have apart : (Act.serve id request answer : Act ρ α ν).id ≠ some other := fun eq =>
        same (Option.some.inj eq).symm
      rw [about_append_apart apart]
      exact inv.life other
  down := by
    rw [List.mem_append, List.mem_singleton, or_iff_left nofun]
    exact inv.down
  faulty other asked fault result := List.mem_append_left _ (inv.faulty other asked fault result)
  served other asked given served := by
    rcases List.mem_append.mp served with before | now
    · exact (inv.served other asked given before).append _
    · cases List.mem_singleton.mp now
      exact ⟨h, [], s.state, state, rfl, inv.led, answers⟩

/-- Other work, and the end of it, are about no call. -/
theorem Inv.apart {up : Bool} {state : σ} (inv : Inv service h s) (none : act.id = none)
    (led : service.Led (h ++ [act]) state) (down : up = false ↔ .stop ∈ h ++ [act]) :
    Inv service (h ++ [act]) { s with state := state, up := up } where
  led := led
  life other := by
    rw [about_append_apart (none ▸ nofun)]
    exact inv.life other
  down := down
  faulty other asked fault result := List.mem_append_left _ (inv.faulty other asked fault result)
  served other asked given served := by
    refine (inv.served other asked given ?_).append _
    rcases List.mem_append.mp served with before | now
    · exact before
    · rw [← List.mem_singleton.mp now] at none
      cases none

/-- **Every act keeps the invariant** that the channels let happen. -/
theorem Inv.step {channels : Channels ρ α ν} (lawful : channels.Lawful) (inv : Inv service h s)
    (permitted : channels h act) (steps : Steps service s act s') :
    Inv service (h ++ [act]) s' := by
  cases steps with
  | @call id request idle =>
    have life := inv.life id
    rw [idle] at life
    refine inv.placed rfl rfl rfl nofun ?_
    rw [(life : about id h = [])]
    rfl
  | @accept id request sends =>
    have life := inv.life id
    rw [sends] at life
    refine inv.placed rfl rfl rfl nofun ?_
    rw [(life : about id h = _)]
    exact .inl rfl
  | @refuse id request sends =>
    have life := inv.life id
    rw [sends] at life
    refine inv.placed rfl rfl rfl (fun _ _ _ => lawful.refused permitted) ?_
    rw [(life : about id h = _)]
    rfl
  | serve up answers => exact inv.done up (lawful.sent permitted) (lawful.once permitted) answers
  | @receive id request answer awaits =>
    -- The answer was sent back, so the request was served, and with this answer.
    have life := inv.life id
    rw [awaits] at life
    obtain ⟨asked, served⟩ := lawful.answered permitted
    have served : Act.serve id asked answer ∈ about id h := mem_about.mpr ⟨served, rfl⟩
    refine inv.placed rfl rfl rfl nofun ?_
    rcases life with acts | ⟨given, acts⟩
    · rw [acts] at served
      simp at served
    · rw [acts] at served
      obtain ⟨rfl, rfl⟩ : asked = request ∧ answer = given := by simpa using served
      rw [acts]
      rfl
  | @cancel id request awaits =>
    have life := inv.life id
    rw [awaits] at life
    obtain ⟨stopped, unserved⟩ := lawful.canceled permitted
    refine inv.placed rfl rfl rfl (fun _ _ _ => stopped) ?_
    rcases life with acts | ⟨given, acts⟩
    · rw [acts]
      rfl
    · have served : Act.serve id request given ∈ about id h := by simp [acts]
      exact absurd (mem_about.mp served).1 (unserved request given)
  | @abandonSending id request sends =>
    have life := inv.life id
    rw [sends] at life
    refine inv.placed rfl rfl rfl nofun ?_
    rw [(life : about id h = _)]
    exact .inl rfl
  | @abandonAwaiting id request awaits =>
    have life := inv.life id
    rw [awaits] at life
    refine inv.placed rfl rfl rfl nofun ?_
    rcases life with acts | ⟨given, acts⟩
    · rw [acts]
      exact .inr (.inl rfl)
    · rw [acts]
      exact .inr (.inr ⟨given, .inl rfl⟩)
  | @turn input state up turned =>
    have stepped : service.step s.state (.inr input) = some state := turned
    refine inv.apart rfl (inv.led.worked rfl stepped) ?_
    rw [List.mem_append, List.mem_singleton, or_iff_left nofun]
    exact inv.down
  | stop =>
    refine inv.apart rfl (inv.led.idle rfl) ⟨fun _ => ?_, fun _ => rfl⟩
    exact List.mem_append_right _ (List.mem_singleton_self _)

/-! ## The end of a call -/

/-- **A call with an answer** was served once, and the answer is the service's. -/
theorem Inv.answered (inv : Inv service h s)
    (returned : s.callers id = .returned request (.ok answer)) :
    about id h = [.call id request, .accept id request, .serve id request answer,
      .receive id answer] ∧ service.Served h id request answer := by
  have life := inv.life id
  rw [returned] at life
  have acts : about id h = _ := life
  refine ⟨acts, inv.served id request answer ?_⟩
  have served : Act.serve id request answer ∈ about id h := by
    rw [acts]
    simp
  exact (mem_about.mp served).1

/-- **A call that failed** was made, and was not served. -/
theorem Inv.failed {fault : Fault} (inv : Inv service h s)
    (returned : s.callers id = .returned request (.error fault)) :
    .call id request ∈ h ∧ ∀ asked given, Act.serve id asked given ∉ h := by
  have life := inv.life id
  rw [returned] at life
  have acts : .call id request ∈ about id h ∧
      ∀ asked given, Act.serve id asked given ∉ about id h := by
    cases fault with
    | unsent =>
      rw [(life : about id h = _)]
      simp
    | dropped =>
      rw [(life : about id h = _)]
      simp
  exact ⟨(mem_about.mp acts.1).1, fun asked given served =>
    acts.2 asked given (mem_about.mpr ⟨served, rfl⟩)⟩

/-- A call that has returned is left alone. -/
theorem place_keeps {other : Nat} {caller : Caller ρ α} {result : Except Fault α}
    (returned : s.callers id = .returned request result)
    (pending : ∀ request result, s.callers other ≠ .returned request result) :
    (s.place other caller).callers id = .returned request result := by
  have apart : id ≠ other := by
    rintro rfl
    exact pending _ _ returned
  rw [place_callers_of_ne apart, returned]

/-- **A call returns once**: its result does not change. -/
theorem Steps.returned {result : Except Fault α} (steps : Steps service s act s')
    (returned : s.callers id = .returned request result) :
    s'.callers id = .returned request result := by
  cases steps with
  | call pending | accept pending | refuse pending | receive pending | cancel pending
  | abandonSending pending | abandonAwaiting pending =>
    exact place_keeps returned (by simp [pending])
  | serve | turn | stop => exact returned

/-- A request is served when its call has been made. -/
theorem Inv.called_first {asked : ρ} {before after : List (Act ρ α ν)} (inv : Inv service h s)
    (split : h = before ++ .call id asked :: after) (served : Act.serve id request answer ∈ h) :
    Act.serve id request answer ∈ after := by
  have none : about id before = [] := Life.begins (inv.life id) (split ▸ about_split id rfl)
  rw [split] at served
  rcases List.mem_append.mp served with early | late
  · have here : Act.serve id request answer ∈ about id before := mem_about.mpr ⟨early, rfl⟩
    rw [none] at here
    cases here
  · simpa using late

/-! ## A server that is down -/

variable [DecidableEq ρ] [DecidableEq α] {channels : Channels ρ α ν}
  {ok : List (Act ρ α ν) → Server σ ρ α → Act ρ α ν → Prop}

/-- **The invariant of every run.** -/
theorem inv_run (lawful : channels.Lawful)
    (run : Run (step service) (fun h _ => channels h) (start service) h s) : Inv service h s :=
  run.invariant .start fun _ _ _ _ inv permitted stepped =>
    inv.step lawful permitted (step_iff.mp stepped)

/-- **A call made after another returned is served after it.** -/
theorem in_order (lawful : channels.Lawful) {first second : Nat} {asked : ρ} {given : α}
    {before between after : List (Act ρ α ν)}
    (run : Run (step service) (fun h _ => channels h) (start service) h s)
    (split : h = before ++ .receive first given :: (between ++ .call second asked :: after))
    (served : Act.serve second request answer ∈ h) :
    (∃ request, .serve first request given ∈ before) ∧
      Act.serve second request answer ∈ after := by
  obtain ⟨_, _, permitted⟩ := run.met split
  have called : h = (before ++ .receive first given :: between) ++ .call second asked :: after := by
    rw [split, List.append_assoc, List.cons_append]
  exact ⟨lawful.answered permitted, (inv_run lawful run).called_first called served⟩

end Server

end Saved.Lib
