import Mathlib.Data.List.Perm.Basic
import Mathlib.Order.Lattice

/-!
# Sorts that ask for comparisons

A sort that takes a comparator knows its elements only by the outcomes of comparisons. `Asking` is
such a program as data: an answer, or a question whether one element is less than another and what
to do with either outcome. `Asking.run` answers the questions in order, the `k`-th one by `less k`,
so a comparator may answer the same question differently the next time.

Two runs in which no question is answered differently are one run (`Asking.run_congr`). So a sort
that is right under every order (`Sorts`) is right under any comparator whose answers are those of
one order along the run.

`insertionSort` is the program of the insertion sort that shifts from the back. In it the answers
can be read off the result: an element stands before another it was compared with exactly when it
was answered to be less, and later insertions do not change that (`insertAll_agrees`).
-/

namespace Saved.Lib

variable {α ρ ρ' : Type}

/-- **A program that asks for comparisons** of elements and answers a result. -/
inductive Asking (α ρ : Type) where
  | done (result : ρ)
  | ask (x y : α) (next : Bool → Asking α ρ)

namespace Asking

/-- One program after another. -/
def bind : Asking α ρ → (ρ → Asking α ρ') → Asking α ρ'
  | done result, f => f result
  | ask x y next, f => ask x y fun outcome => (next outcome).bind f

/-- **Run a program** whose first question is the `k`-th: its result, and the number of the next
question. -/
def run (less : Nat → α → α → Bool) : Asking α ρ → Nat → ρ × Nat
  | done result, k => (result, k)
  | ask x y next, k => (next (less k x y)).run less (k + 1)

/-- Along the run under one comparator, the other gives the same answers. -/
def Agrees (less less' : Nat → α → α → Bool) : Asking α ρ → Nat → Prop
  | done _, _ => True
  | ask x y next, k => less k x y = less' k x y ∧ (next (less k x y)).Agrees less less' (k + 1)

/-- **Whatever it is told**, it asks about elements of a list only, and its result is as `P`
says. -/
def Within (l : List α) (P : ρ → Prop) : Asking α ρ → Prop
  | done result => P result
  | ask x y next => x ∈ l ∧ y ∈ l ∧ ∀ outcome, (next outcome).Within l P

variable {less less' : Nat → α → α → Bool} {m : Asking α ρ} {k : Nat} {l l' : List α}
  {P : ρ → Prop} {Q : ρ' → Prop}

/-- A sequence of two asks what the first asks and then what the second does, with the count of the
questions going on. -/
theorem run_bind (m : Asking α ρ) (f : ρ → Asking α ρ') (k : Nat) :
    (m.bind f).run less k = (f (m.run less k).1).run less (m.run less k).2 := by
  induction m generalizing k with
  | done result => rfl
  | ask x y next ih => exact ih (less k x y) (k + 1)

/-- So two ways of answering agree on it when they agree on both. -/
theorem agrees_bind (m : Asking α ρ) (f : ρ → Asking α ρ') (k : Nat) :
    (m.bind f).Agrees less less' k ↔
      m.Agrees less less' k ∧ (f (m.run less k).1).Agrees less less' (m.run less k).2 := by
  induction m generalizing k with
  | done result => exact ⟨fun agrees => ⟨trivial, agrees⟩, And.right⟩
  | ask x y next ih => exact (and_congr_right fun _ => ih (less k x y) (k + 1)).trans and_assoc.symm

/-- **Runs with the same answers are the same.** -/
theorem run_congr (agrees : m.Agrees less less' k) : m.run less' k = m.run less k := by
  induction m generalizing k with
  | done result => rfl
  | ask x y next ih =>
    obtain ⟨here, later⟩ := agrees
    show (next (less' k x y)).run less' (k + 1) = (next (less k x y)).run less (k + 1)
    rw [← here]
    exact ih (less k x y) later

/-- Of two ways of answering, each is as good as the other when all answers are the same. -/
theorem Agrees.symm (agrees : m.Agrees less less' k) : m.Agrees less' less k := by
  induction m generalizing k with
  | done result => trivial
  | ask x y next ih =>
    obtain ⟨here, later⟩ := agrees
    refine ⟨here.symm, ?_⟩
    rw [← here]
    exact ih (less k x y) later

/-- The result of a run is one of those that can be told. -/
theorem Within.run (within : m.Within l P) (less : Nat → α → α → Bool) (k : Nat) :
    P (m.run less k).1 := by
  induction m generalizing k with
  | done result => exact within
  | ask x y next ih => exact ih _ (within.2.2 _) (k + 1)

/-- One program after another: the second may rely on what the first can answer. -/
theorem Within.bind {f : ρ → Asking α ρ'} (first : m.Within l P)
    (second : ∀ result, P result → (f result).Within l Q) : (m.bind f).Within l Q := by
  induction m with
  | done result => exact second result first
  | ask x y next ih => exact ⟨first.1, first.2.1, fun outcome => ih outcome (first.2.2 outcome)⟩

/-- More elements to ask about, and less said of the result. -/
theorem Within.mono {P' : ρ → Prop} (within : m.Within l P) (more : l ⊆ l')
    (weaker : ∀ result, P result → P' result) : m.Within l' P' := by
  induction m with
  | done result => exact weaker result within
  | ask x y next ih =>
    exact ⟨more within.1, more within.2.1, fun outcome => ih outcome (within.2.2 outcome)⟩

/-- **Comparators that agree on the elements** give the same answers along every run of a program
that asks about those only, whatever the numbers of its questions are. -/
theorem Within.agrees (within : m.Within l P)
    (alike : ∀ k, ∀ x ∈ l, ∀ y ∈ l, less k x y = less' k x y) : m.Agrees less less' k := by
  induction m generalizing k with
  | done result => trivial
  | ask x y next ih =>
    obtain ⟨hx, hy, rest⟩ := within
    exact ⟨alike k x hx y hy, ih _ (rest _)⟩

end Asking

/-- The comparator of a key. -/
def keyLess {κ : Type} [LinearOrder κ] (key : α → κ) (_ : Nat) (x y : α) : Bool :=
  decide (key x < key y)

/-- **A program that sorts**: under the comparator of any key it answers the elements in the order
of the key. -/
def Sorts (sorter : List α → Asking α (List α)) : Prop :=
  ∀ {κ : Type} [LinearOrder κ] (key : α → κ) (l : List α),
    (((sorter l).run (keyLess key) 0).1).Perm l ∧
      (((sorter l).run (keyLess key) 0).1).Pairwise fun x y => key x ≤ key y

/-- **A sorting program**: under the comparator of a key it sorts, and whatever it is told it asks
about its elements only and answers them in some order. A sort that takes a comparator can do no
other: it knows its elements by their comparisons, and has nothing else to ask about. -/
structure Sorter (α : Type) where
  program : List α → Asking α (List α)
  sorts : Sorts program
  within : ∀ l, (program l).Within l (·.Perm l)

/-! ## Insertion sort -/

/-- Insert an element into a vector, from the back; the vector and the result are reversed. -/
def insertBack (x : α) : List α → Asking α (List α)
  | [] => .done [x]
  | y :: ys => .ask x y fun less =>
    if less then (insertBack x ys).bind fun rest => .done (y :: rest) else .done (x :: y :: ys)

/-- Insert the elements of a list in turn; what is sorted already is reversed. -/
def insertAll : List α → List α → Asking α (List α)
  | sorted, [] => .done sorted.reverse
  | sorted, x :: xs => (insertBack x sorted).bind fun sorted => insertAll sorted xs

/-- **Insertion sort**, with a comparison of the element to insert and the one before it. -/
def insertionSort (l : List α) : Asking α (List α) := insertAll [] l

variable {less : Nat → α → α → Bool} {x : α} {sorted : List α} {k : Nat}

/-- An insertion compares the element with those before it, and loses none of them, by whatever
outcomes it goes. -/
theorem insertBack_within (x : α) (sorted : List α) :
    (insertBack x sorted).Within (x :: sorted) (·.Perm (x :: sorted)) := by
  induction sorted with
  | nil => exact .refl _
  | cons y ys ih =>
    refine ⟨List.mem_cons_self, List.mem_cons_of_mem _ List.mem_cons_self, fun outcome => ?_⟩
    cases outcome with
    | false => exact .refl _
    | true =>
      have inner : (insertBack x ys).Within (x :: y :: ys) (·.Perm (x :: ys)) :=
        ih.mono (List.cons_subset_cons x (List.subset_cons_self y ys)) fun _ perm => perm
      exact inner.bind fun rest perm => (perm.cons y).trans (.swap x y ys)

/-- **Insertion sort asks about its elements only and loses none**, by whatever outcomes it goes. -/
theorem insertAll_within (sorted l : List α) :
    (insertAll sorted l).Within (sorted ++ l) (·.Perm (sorted ++ l)) := by
  induction l generalizing sorted with
  | nil =>
    rw [List.append_nil]
    exact sorted.reverse_perm
  | cons x xs ih =>
    have known : x :: sorted ⊆ sorted ++ x :: xs := by
      intro y mem
      rcases List.mem_cons.mp mem with rfl | old
      · exact List.mem_append_right sorted List.mem_cons_self
      · exact List.mem_append_left _ old
    refine ((insertBack_within x sorted).mono known fun _ perm => perm).bind fun now perm => ?_
    -- what is left to insert goes behind the element that was inserted
    have whole : (now ++ xs).Perm (sorted ++ x :: xs) :=
      (perm.append_right xs).trans List.perm_middle.symm
    exact (ih now).mono whole.subset fun _ perm => perm.trans whole

/-- One insertion keeps the elements, whatever it is told. -/
theorem insertBack_perm (less : Nat → α → α → Bool) (x : α) (sorted : List α) (k : Nat) :
    ((insertBack x sorted).run less k).1.Perm (x :: sorted) :=
  (insertBack_within x sorted).run less k

/-- The sort keeps the elements, whatever it is told, also by answers that fit no order. -/
theorem insertAll_perm (less : Nat → α → α → Bool) (sorted l : List α) (k : Nat) :
    ((insertAll sorted l).run less k).1.Perm (sorted ++ l) := (insertAll_within sorted l).run less k

/-- What was sorted keeps its order, with the element inserted into it. -/
theorem insertBack_sublist (less : Nat → α → α → Bool) (x : α) (sorted : List α) (k : Nat) :
    sorted.Sublist ((insertBack x sorted).run less k).1 := by
  induction sorted generalizing k with
  | nil => exact List.nil_sublist _
  | cons y ys ih =>
    show List.Sublist _ ((if less k x y then _ else _ : Asking α (List α)).run less (k + 1)).1
    split
    · rw [Asking.run_bind]
      exact (ih (k + 1)).cons_cons y
    · exact List.sublist_cons_self x _

/-- What was sorted keeps its order while the rest is put in, whatever the answers. -/
theorem insertAll_sublist (less : Nat → α → α → Bool) (sorted l : List α) (k : Nat) :
    sorted.reverse.Sublist ((insertAll sorted l).run less k).1 := by
  induction l generalizing sorted k with
  | nil => exact List.Sublist.refl _
  | cons x xs ih =>
    rw [insertAll, Asking.run_bind]
    exact (List.reverse_sublist.mpr (insertBack_sublist less x sorted k)).trans (ih _ _)

section Key

variable {κ : Type} [LinearOrder κ] {key : α → κ}

/-- Under the comparator of a key, an insertion keeps the order. -/
theorem insertBack_pairwise (sorted : List α) (k : Nat)
    (ordered : sorted.Pairwise fun x y => key y ≤ key x) :
    ((insertBack x sorted).run (keyLess key) k).1.Pairwise fun x y => key y ≤ key x := by
  induction sorted generalizing k with
  | nil => exact List.pairwise_singleton _ x
  | cons y ys ih =>
    obtain ⟨below, rest⟩ := List.pairwise_cons.mp ordered
    show ((if keyLess key k x y then _ else _ : Asking α (List α)).run (keyLess key)
      (k + 1)).1.Pairwise _
    split
    · next less =>
      rw [Asking.run_bind]
      refine List.pairwise_cons.mpr ⟨fun z hz => ?_, ih (k + 1) rest⟩
      rcases List.mem_cons.mp ((insertBack_perm _ x ys _).mem_iff.mp hz) with rfl | old
      · exact (of_decide_eq_true less).le
      · exact below z old
    · next notLess =>
      have le : key y ≤ key x := not_lt.mp fun less => notLess (decide_eq_true less)
      refine List.pairwise_cons.mpr ⟨fun z hz => ?_, ordered⟩
      rcases List.mem_cons.mp hz with rfl | old
      · exact le
      · exact (below z old).trans le

/-- With the answers of a key the sorted part stays sorted, by induction on what is left to put
in. -/
theorem insertAll_pairwise (sorted l : List α) (k : Nat)
    (ordered : sorted.Pairwise fun x y => key y ≤ key x) :
    ((insertAll sorted l).run (keyLess key) k).1.Pairwise fun x y => key x ≤ key y := by
  induction l generalizing sorted k with
  | nil => exact List.pairwise_reverse.mpr ordered
  | cons x xs ih =>
    rw [insertAll, Asking.run_bind]
    exact ih _ _ (insertBack_pairwise sorted k ordered)

/-- **Insertion sort sorts.** -/
theorem insertionSort_sorts : Sorts (insertionSort : List α → Asking α (List α)) :=
  fun _ l => ⟨insertAll_perm _ [] l 0, insertAll_pairwise [] l 0 .nil⟩

/-- Insertion sort as a sorting program. -/
def Sorter.insertion : Sorter α := ⟨insertionSort, insertionSort_sorts, insertAll_within []⟩

/-- The answers of an insertion are those of the order its result is in. -/
theorem insertBack_agrees (sorted : List α) (k : Nat)
    (ordered : ((insertBack x sorted).run less k).1.Pairwise fun x y => key y < key x) :
    (insertBack x sorted).Agrees less (keyLess key) k := by
  induction sorted generalizing k with
  | nil => trivial
  | cons y ys ih =>
    cases answer : less k x y with
    | true =>
      -- `x` goes on, and what it passed stands before it in a list that is strictly ordered.
      have shape : ((insertBack x (y :: ys)).run less k).1 =
          y :: ((insertBack x ys).run less (k + 1)).1 := by
        simp only [insertBack, Asking.run, answer, if_true, Asking.run_bind]
      rw [shape] at ordered
      obtain ⟨below, rest⟩ := List.pairwise_cons.mp ordered
      have lt : key x < key y := below x
        ((insertBack_perm less x ys (k + 1)).mem_iff.mpr List.mem_cons_self)
      refine ⟨answer.trans (decide_eq_true lt).symm, ?_⟩
      rw [answer]
      exact (Asking.agrees_bind _ _ _).mpr ⟨ih (k + 1) rest, trivial⟩
    | false =>
      have shape : ((insertBack x (y :: ys)).run less k).1 = x :: y :: ys := by
        simp only [insertBack, Asking.run, answer, Bool.false_eq_true, if_false]
      rw [shape] at ordered
      have lt : key y < key x := (List.pairwise_cons.mp ordered).1 y List.mem_cons_self
      refine ⟨answer.trans (decide_eq_false lt.not_gt).symm, ?_⟩
      rw [answer]
      trivial

/-- **The answers are those of the order the result is in.** -/
theorem insertAll_agrees (sorted l : List α) (k : Nat)
    (ordered : ((insertAll sorted l).run less k).1.Pairwise fun x y => key x < key y) :
    (insertAll sorted l).Agrees less (keyLess key) k := by
  induction l generalizing sorted k with
  | nil => trivial
  | cons x xs ih =>
    rw [insertAll, Asking.run_bind] at ordered
    rw [insertAll, Asking.agrees_bind]
    refine ⟨insertBack_agrees sorted k ?_, ih _ _ ordered⟩
    exact List.pairwise_reverse.mp (ordered.sublist (insertAll_sublist less _ xs _))

end Key

end Saved.Lib
