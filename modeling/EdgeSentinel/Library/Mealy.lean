import Mathlib.Data.List.DropRight

/-! Deterministic machines that answer every input with one output. A run is
an arbitrary finite list of inputs; nothing here bounds its length, and the
induction principles below are the only place where runs are unrolled. -/
namespace Mealy

variable {S T A O : Type*}

/-- The state reached after a whole list of inputs. -/
def final (step : S → A → S × O) (s : S) : List A → S
  | [] => s
  | a :: rest => final step (step s a).1 rest

/-- One output for every input, in order. -/
def outputs (step : S → A → S × O) (s : S) : List A → List O
  | [] => []
  | a :: rest => (step s a).2 :: outputs step (step s a).1 rest

/-- Every input of a run next to the output that answered it. -/
def trace (step : S → A → S × O) (s : S) (xs : List A) : List (A × O) :=
  xs.zip (outputs step s xs)

section Runs

variable (step : S → A → S × O)

@[simp] theorem final_nil (s : S) : final step s [] = s := rfl

@[simp] theorem final_cons (s : S) (a : A) (xs : List A) :
    final step s (a :: xs) = final step (step s a).1 xs := rfl

@[simp] theorem outputs_nil (s : S) : outputs step s [] = [] := rfl

@[simp] theorem outputs_cons (s : S) (a : A) (xs : List A) :
    outputs step s (a :: xs) = (step s a).2 :: outputs step (step s a).1 xs := rfl

theorem final_append (s : S) (xs ys : List A) :
    final step s (xs ++ ys) = final step (final step s xs) ys := by
  induction xs generalizing s with
  | nil => rfl
  | cons a rest ih => exact ih _

theorem final_concat (s : S) (xs : List A) (a : A) :
    final step s (xs ++ [a]) = (step (final step s xs) a).1 := by
  rw [final_append]
  rfl

theorem outputs_append (s : S) (xs ys : List A) :
    outputs step s (xs ++ ys) = outputs step s xs ++ outputs step (final step s xs) ys := by
  induction xs generalizing s with
  | nil => rfl
  | cons a rest ih => simp only [List.cons_append, outputs_cons, final_cons, ih]

@[simp] theorem outputs_length (s : S) (xs : List A) :
    (outputs step s xs).length = xs.length := by
  induction xs generalizing s with
  | nil => rfl
  | cons a rest ih => simp only [outputs_cons, List.length_cons, ih]

/-- The answer at one place of a run depends on the inputs up to it. -/
theorem outputs_getElem? (s : S) (xs : List A) (i : Nat) :
    (outputs step s xs)[i]? = xs[i]?.map fun a => (step (final step s (xs.take i)) a).2 := by
  induction xs generalizing s i with
  | nil => rfl
  | cons a rest ih =>
    cases i with
    | zero => rfl
    | succ i => exact ih _ i

theorem outputs_drop (s : S) (xs : List A) (n : Nat) :
    outputs step (final step s (xs.take n)) (xs.drop n) = (outputs step s xs).drop n := by
  induction xs generalizing s n with
  | nil => simp
  | cons a rest ih =>
    cases n with
    | zero => rfl
    | succ n => exact ih _ n

@[simp] theorem trace_nil (s : S) : trace step s [] = [] := rfl

theorem trace_concat (s : S) (xs : List A) (a : A) :
    trace step s (xs ++ [a]) = trace step s xs ++ [(a, (step (final step s xs) a).2)] := by
  rw [trace, outputs_append, List.zip_append (outputs_length step s xs).symm]
  rfl

/-- A property of the history and the state it leads to, proved one input at
a time. Invariants that do not mention the history are a special case. -/
theorem history_induction {P : List A → S → Prop} {s : S} (start : P [] s)
    (next : ∀ xs t a, P xs t → final step s xs = t → P (xs ++ [a]) (step t a).1) (xs : List A) :
    P xs (final step s xs) := by
  induction xs using List.reverseRecOn with
  | nil => exact start
  | append_singleton rest a ih =>
    rw [final_concat]
    exact next rest _ a ih rfl

theorem invariant {P : S → Prop} {s : S} (start : P s)
    (next : ∀ t a, P t → P (step t a).1) (xs : List A) : P (final step s xs) :=
  history_induction step (P := fun _ t => P t) start (fun _ t a h _ => next t a h) xs

/-- Two machines that stay related and answer alike at every input. -/
theorem lockstep {other : T → A → T × O} {R : S → T → Prop}
    (next : ∀ s t a, R s t → R (step s a).1 (other t a).1 ∧ (step s a).2 = (other t a).2)
    {s : S} {t : T} (start : R s t) (xs : List A) :
    R (final step s xs) (final other t xs) ∧ outputs step s xs = outputs other t xs := by
  induction xs generalizing s t with
  | nil => exact ⟨start, rfl⟩
  | cons a rest ih =>
    obtain ⟨related, same⟩ := next s t a start
    obtain ⟨last, answers⟩ := ih related
    exact ⟨last, by rw [outputs_cons, outputs_cons, same, answers]⟩

end Runs

end Mealy

namespace List

/-- Length of the longest suffix whose elements all satisfy the predicate. -/
def suffixCount {α : Type*} (p : α → Bool) (l : List α) : Nat := (l.rtakeWhile p).length

section SuffixCount

variable {α : Type*} (p : α → Bool)

@[simp] theorem suffixCount_nil : suffixCount p [] = 0 := rfl

@[simp] theorem suffixCount_concat (l : List α) (a : α) :
    suffixCount p (l ++ [a]) = if p a then suffixCount p l + 1 else 0 := by
  unfold suffixCount
  rw [rtakeWhile_concat]
  split <;> simp

end SuffixCount

end List
