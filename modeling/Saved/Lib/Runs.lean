import Mathlib.Init

/-!
# Runs of a step function

A system takes one input at a time: `step s i` is the state it is in when it has handled `i`, or
nothing when handling `i` does not return. `Run step ok s₀ h s` says that the inputs `h`, handled
in order from `s₀`, lead to `s`, and that each of them met the condition `ok` when it came. The
condition may look at the inputs before it and at the state it finds, so it can say what the
environment promises (an identifier is fresh) as well as which inputs a result is about.

`Run.invariant` is the induction over runs, packaged once; `Run.refines` makes of it the rule for a
refinement by an abstraction, and `Run.lockstep` the one for two systems. `replay` computes a run of
given inputs.
-/

namespace Saved.Lib

variable {σ ι : Type}

/-- **A run**: the inputs in order, each meeting `ok` when it came, and the state they lead to. -/
inductive Run (step : σ → ι → Option σ) (ok : List ι → σ → ι → Prop) (s₀ : σ) :
    List ι → σ → Prop
  | start : Run step ok s₀ [] s₀
  | next {h : List ι} {s s' : σ} {i : ι} : Run step ok s₀ h s → ok h s i → step s i = some s' →
      Run step ok s₀ (h ++ [i]) s'

variable {step : σ → ι → Option σ} {ok ok' : List ι → σ → ι → Prop} {s₀ s : σ} {h : List ι}

/-- **The invariant rule.** What holds at the start and is kept by every step that meets the
condition holds at the end of every run. -/
theorem Run.invariant {I : List ι → σ → Prop} (init : I [] s₀)
    (keeps : ∀ h s s' i, I h s → ok h s i → step s i = some s' → I (h ++ [i]) s')
    (run : Run step ok s₀ h s) : I h s := by
  induction run with
  | start => exact init
  | next _ meets stepped ih => exact keeps _ _ _ _ ih meets stepped

/-- The rule for an invariant of the state alone. -/
theorem Run.state_invariant {I : σ → Prop} (init : I s₀)
    (keeps : ∀ h s s' i, I s → ok h s i → step s i = some s' → I s')
    (run : Run step ok s₀ h s) : I s :=
  run.invariant (I := fun _ s => I s) init fun h s s' i => keeps h s s' i

/-- **The rule for refinement.** When every step from a state that keeps the invariant is one turn
of an abstract machine, the abstraction of a run's end is what the machine makes of its inputs. -/
theorem Run.refines {α : Type} {I : σ → Prop} (abstraction : σ → α) (turn : α → ι → α) (init : I s₀)
    (simulates : ∀ s i s', I s → step s i = some s' →
      I s' ∧ abstraction s' = turn (abstraction s) i)
    (run : Run step ok s₀ h s) : abstraction s = h.foldl turn (abstraction s₀) := by
  refine (run.invariant (I := fun h s => I s ∧ abstraction s = h.foldl turn (abstraction s₀))
    ⟨init, rfl⟩ ?_).2
  intro h s s' i ⟨holds, same⟩ _ stepped
  obtain ⟨holds', turned⟩ := simulates s i s' holds stepped
  refine ⟨holds', ?_⟩
  rw [turned, same, List.foldl_append]
  rfl

/-- A run that meets a condition meets every weaker one. -/
theorem Run.mono (weaker : ∀ h s i, ok h s i → ok' h s i) (run : Run step ok s₀ h s) :
    Run step ok' s₀ h s := by
  induction run with
  | start => exact .start
  | next _ meets stepped ih => exact .next ih (weaker _ _ _ meets) stepped

/-- **Runs compose**: the inputs of the second follow those of the first, so its condition sees them
behind those. -/
theorem Run.append {h' : List ι} {s' : σ} (first : Run step ok s₀ h s)
    (second : Run step (fun more => ok (h ++ more)) s h' s') : Run step ok s₀ (h ++ h') s' := by
  induction second with
  | start => rwa [List.append_nil]
  | next _ meets stepped ih =>
    rw [← List.append_assoc]
    exact .next ih meets stepped

/-- **Each input of a run met the condition when it came**, in the state that those before it had
led to. -/
theorem Run.met {before after : List ι} {i : ι} (run : Run step ok s₀ h s)
    (split : h = before ++ i :: after) : ∃ t, Run step ok s₀ before t ∧ ok before t i := by
  induction run generalizing after with
  | start =>
    have some : before ++ i :: after ≠ [] :=
      List.append_ne_nil_of_right_ne_nil _ (List.cons_ne_nil i after)
    exact absurd split.symm some
  | @next h s s' j early meets _ ih =>
    -- The input is the last of the run, or the run was longer than this when it came.
    rcases List.eq_nil_or_concat after with rfl | ⟨rest, last, rfl⟩
    · obtain ⟨rfl, same⟩ := List.append_inj' split rfl
      cases same
      exact ⟨s, early, meets⟩
    · rw [List.concat_eq_append, ← List.cons_append, ← List.append_assoc] at split
      exact ih (List.append_inj' split rfl).1

/-- A translation of the inputs that the steps agree with takes runs to runs. -/
theorem Run.map {ι' : Type} {step' : σ → ι' → Option σ} (f : ι → ι')
    (agrees : ∀ s i, step' s (f i) = step s i) (run : Run step ok s₀ h s) :
    Run step' (fun _ _ _ => True) s₀ (h.map f) s := by
  induction run with
  | start => exact .start
  | next _ _ stepped ih =>
    rw [List.map_append]
    exact .next ih trivial ((agrees _ _).trans stepped)

/-- The last step of a run. -/
theorem Run.last {i : ι} {s' : σ} (run : Run step ok s₀ (h ++ [i]) s') :
    ∃ s, Run step ok s₀ h s ∧ ok h s i ∧ step s i = some s' := by
  generalize whole : h ++ [i] = l at run
  cases run with
  | start => exact absurd whole (List.append_ne_nil_of_right_ne_nil h (List.cons_ne_nil i []))
  | next before meets stepped =>
    obtain ⟨rfl, same⟩ := List.append_inj' whole rfl
    cases same
    exact ⟨_, before, meets, stepped⟩

/-- **The rule for two systems in lockstep.** What relates two systems at the start, and is kept by
every step of both that takes the same input, relates them after runs of the same inputs. -/
theorem Run.lockstep {σ' : Type} {step' : σ' → ι → Option σ'} {ok' : List ι → σ' → ι → Prop}
    {t₀ t : σ'} {R : σ → σ' → Prop} (init : R s₀ t₀)
    (keeps : ∀ s t i s' t', R s t → step s i = some s' → step' t i = some t' → R s' t')
    (run : Run step ok s₀ h s) (run' : Run step' ok' t₀ h t) : R s t := by
  induction run generalizing t with
  | start =>
    generalize none : ([] : List ι) = l at run'
    cases run' with
    | start => exact init
    | next => exact absurd none.symm (List.append_ne_nil_of_right_ne_nil _ (List.cons_ne_nil _ []))
  | next _ _ stepped ih =>
    obtain ⟨u, before, _, stepped'⟩ := run'.last
    exact keeps _ _ _ _ _ (ih before) stepped stepped'

variable [∀ h s i, Decidable (ok h s i)]

/-- The state a list of inputs leads to, when each of them meets the condition and is handled. -/
def replay (step : σ → ι → Option σ) (ok : List ι → σ → ι → Prop)
    [∀ h s i, Decidable (ok h s i)] : List ι → σ → List ι → Option σ
  | _, s, [] => some s
  | h, s, i :: is =>
    if ok h s i then
      match step s i with
      | none => none
      | some s' => replay step ok (h ++ [i]) s' is
    else none

/-- What a replay finds is a run: it tests the condition before each input, and takes the step. -/
theorem Run.of_replay {s' : σ} : ∀ {is : List ι} {h : List ι} {s : σ}, Run step ok s₀ h s →
    replay step ok h s is = some s' → Run step ok s₀ (h ++ is) s'
  | [], h, s, run, done => by
    cases done
    rwa [List.append_nil]
  | i :: is, h, s, run, done => by
    unfold replay at done
    split at done
    · next meets =>
      split at done
      · cases done
      · next t stepped =>
        have := Run.of_replay (.next run meets stepped) done
        rwa [List.append_assoc] at this
    · cases done

/-- A computed run, with a property of its end. -/
theorem Run.exists_of_replay {is : List ι} {P : σ → Bool}
    (done : (replay step ok [] s₀ is).any P = true) : ∃ s, Run step ok s₀ is s ∧ P s = true := by
  obtain ⟨s, hs, hP⟩ := (Option.any_eq_true _ _).mp done
  exact ⟨s, Run.of_replay .start hs, hP⟩

end Saved.Lib
