import Mathlib.Init

/-!
# Traces of a labelled step

A step from `s` to `t` is visible, with a label, or silent: `Step s o t` with `o` the label or
nothing. `Trace Step s l t` says that some steps lead from `s` to `t`, and that `l` is what was
visible of them, in order.

A trace can be cut wherever its list of labels can (`Trace.split`), so a fact about two labels of
one trace is a fact about the steps between them. `Trace.invariant` is the induction over those
steps, and `Trace.collects` adds up what each step adds to a record.
-/

namespace Saved.Lib

variable {σ ℓ β : Type}

/-- **A trace**: what is visible of the steps from one state to another. -/
inductive Trace (Step : σ → Option ℓ → σ → Prop) : σ → List ℓ → σ → Prop
  | done {s : σ} : Trace Step s [] s
  | silent {s t u : σ} {l : List ℓ} : Step s none t → Trace Step t l u → Trace Step s l u
  | visible {s t u : σ} {x : ℓ} {l : List ℓ} : Step s (some x) t → Trace Step t l u →
      Trace Step s (x :: l) u

namespace Trace

variable {Step : σ → Option ℓ → σ → Prop} {s t u : σ} {x : ℓ} {l l' : List ℓ}

/-- One change that nobody sees. -/
theorem of_silent (step : Step s none t) : Trace Step s [] t := .silent step .done

/-- One change that is seen. -/
theorem of_visible (step : Step s (some x) t) : Trace Step s [x] t := .visible step .done

/-- A trace goes on where another ended, and what is seen of both is seen in order. -/
theorem trans (first : Trace Step s l t) (second : Trace Step t l' u) :
    Trace Step s (l ++ l') u := by
  induction first with
  | done => exact second
  | silent step _ ih => exact .silent step (ih second)
  | visible step _ ih => exact .visible step (ih second)

/-- **The step of the first label.** -/
theorem uncons (trace : Trace Step s (x :: l) u) :
    ∃ t v, Trace Step s [] t ∧ Step t (some x) v ∧ Trace Step v l u := by
  generalize labels : x :: l = l₀ at trace
  induction trace with
  | done => cases labels
  | silent step _ ih =>
    obtain ⟨t, v, before, first, rest⟩ := ih labels
    exact ⟨t, v, .silent step before, first, rest⟩
  | visible step rest _ =>
    cases labels
    exact ⟨_, _, .done, step, rest⟩

/-- **A trace is cut where its labels are.** -/
theorem split (trace : Trace Step s (l ++ l') u) :
    ∃ t, Trace Step s l t ∧ Trace Step t l' u := by
  induction l generalizing s with
  | nil => exact ⟨s, .done, trace⟩
  | cons x l ih =>
    obtain ⟨t, v, before, first, rest⟩ := trace.uncons
    obtain ⟨w, until', after⟩ := ih rest
    exact ⟨w, before.trans (.visible first until'), after⟩

/-- Steps that are steps of another relation. -/
theorem mono {Step' : σ → Option ℓ → σ → Prop} (weaker : ∀ s o t, Step s o t → Step' s o t)
    (trace : Trace Step s l t) : Trace Step' s l t := by
  induction trace with
  | done => exact .done
  | silent step _ ih => exact .silent (weaker _ _ _ step) ih
  | visible step _ ih => exact .visible (weaker _ _ _ step) ih

/-- **The invariant rule.** What each step keeps, given its label is one of those of the trace, the
trace keeps. -/
theorem invariant {I : σ → Prop} (silent : ∀ s t, Step s none t → I s → I t)
    (visible : ∀ s x t, x ∈ l → Step s (some x) t → I s → I t) (init : I s)
    (trace : Trace Step s l t) : I t := by
  induction trace with
  | done => exact init
  | silent step _ ih => exact ih visible (silent _ _ step init)
  | visible step _ ih =>
    exact ih (fun s y t later => visible s y t (List.mem_cons_of_mem _ later))
      (visible _ _ _ List.mem_cons_self step init)

/-- **What the steps add to a record** is what their labels say, in order. -/
theorem collects {f : σ → List β} {g : ℓ → List β}
    (silent : ∀ s t, Step s none t → f t = f s)
    (visible : ∀ s x t, Step s (some x) t → f t = f s ++ g x) (trace : Trace Step s l t) :
    f t = f s ++ l.flatMap g := by
  induction trace with
  | done => exact (List.append_nil _).symm
  | silent step _ ih => rw [ih, silent _ _ step]
  | visible step _ ih => rw [ih, visible _ _ _ step, List.flatMap_cons, List.append_assoc]

end Trace

end Saved.Lib
