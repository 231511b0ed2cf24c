import Mathlib.Data.List.Basic

/-! Machines whose steps may be disabled. A label carries everything that the
environment decides (which thread moves, whether a wait times out), so a step is
a function and an interleaving is a list of labels. -/
namespace Exec

variable {S T A O : Type*}

/-- A run in which every label was enabled, with the answers it collected. -/
def run (step : S → A → Option (S × O)) (s : S) : List A → Option (S × List O)
  | [] => some (s, [])
  | a :: rest =>
    (step s a).bind fun next => (run step next.1 rest).map fun tail => (tail.1, next.2 :: tail.2)

section Run

variable {step : S → A → Option (S × O)}

@[simp] theorem run_nil (s : S) : run step s [] = some (s, []) := rfl

theorem run_cons {s t : S} {a : A} {rest : List A} {answers : List O} :
    run step s (a :: rest) = some (t, answers) ↔
      ∃ m o tail, step s a = some (m, o) ∧ run step m rest = some (t, tail) ∧
        answers = o :: tail := by
  constructor
  · intro h
    simp only [run, Option.bind_eq_some_iff, Option.map_eq_some_iff] at h
    obtain ⟨⟨m, o⟩, first, ⟨t', tail⟩, later, same⟩ := h
    cases same
    exact ⟨m, o, tail, first, later, rfl⟩
  · rintro ⟨m, o, tail, first, later, rfl⟩
    simp only [run, first, Option.bind_some, later, Option.map_some]

/-- Relations that one step keeps, kept by every run. The relation may speak of
the labels and answers so far. -/
theorem run_induction {P : List A → List O → S → Prop} {s : S} (start : P [] [] s)
    (next : ∀ labels answers t a u o, P labels answers t → step t a = some (u, o) →
      P (labels ++ [a]) (answers ++ [o]) u)
    {labels : List A} {answers : List O} {t : S} (h : run step s labels = some (t, answers)) :
    P labels answers t := by
  suffices general : ∀ (past : List A) (told : List O) (s : S), P past told s →
      run step s labels = some (t, answers) → P (past ++ labels) (told ++ answers) t by
    simpa using general [] [] s start h
  clear h start
  induction labels generalizing answers with
  | nil =>
    intro past told s here h
    cases h
    simpa using here
  | cons a rest ih =>
    intro past told s here h
    obtain ⟨m, o, tail, first, later, rfl⟩ := run_cons.mp h
    have step := ih (past ++ [a]) (told ++ [o]) m (next past told s a m o here first) later
    simpa using step

theorem run_append {s t u : S} {labels more : List A} {answers told : List O}
    (h : run step s labels = some (t, answers)) (next : run step t more = some (u, told)) :
    run step s (labels ++ more) = some (u, answers ++ told) := by
  induction labels generalizing s answers with
  | nil =>
    cases h
    exact next
  | cons a rest ih =>
    obtain ⟨m, o, tail, first, later, rfl⟩ := run_cons.mp h
    exact run_cons.mpr ⟨m, o, tail ++ told, first, ih later, rfl⟩

/-- Laps in a row, each with labels of its own. -/
theorem run_range {P : Nat → List O → S → Prop} {labels : Nat → List A} {s : S} {count : Nat}
    (start : P 0 [] s)
    (lap : ∀ n answers t, n < count → P n answers t →
      ∃ u more, run step t (labels n) = some (u, more) ∧ P (n + 1) (answers ++ more) u) :
    ∃ t answers, run step s ((List.range count).flatMap labels) = some (t, answers) ∧
      P count answers t := by
  induction count with
  | zero => exact ⟨s, [], rfl, start⟩
  | succ count ih =>
    obtain ⟨t, answers, past, here⟩ := ih fun n answers t bound => lap n answers t (by omega)
    obtain ⟨u, more, next, there⟩ := lap count answers t (by omega) here
    refine ⟨u, answers ++ more, ?_, there⟩
    rw [List.range_succ, List.flatMap_append, List.flatMap_singleton]
    exact run_append past next

/-- `run_induction` with the run so far at hand in every step. -/
theorem past_induction {P : List A → List O → S → Prop} {s : S} (start : P [] [] s)
    (next : ∀ labels answers t a u o, run step s labels = some (t, answers) →
      P labels answers t → step t a = some (u, o) → P (labels ++ [a]) (answers ++ [o]) u)
    {labels : List A} {answers : List O} {t : S} (h : run step s labels = some (t, answers)) :
    P labels answers t := by
  have all := run_induction
    (P := fun labels answers t => run step s labels = some (t, answers) ∧ P labels answers t)
    ⟨rfl, start⟩ ?_ h
  · exact all.2
  · rintro labels answers t a u o ⟨past, here⟩ moved
    have last : run step t [a] = some (u, [o]) := run_cons.mpr ⟨u, o, [], moved, rfl, rfl⟩
    exact ⟨run_append past last, next labels answers t a u o past here moved⟩

/-- The steps of a run, each with the states before and after it. -/
def moves (step : S → A → Option (S × O)) (s : S) : List A → List (S × A × S)
  | [] => []
  | a :: rest =>
    match step s a with
    | some (t, _) => (s, a, t) :: moves step t rest
    | none => []

theorem moves_concat {s t u : S} {labels : List A} {answers : List O} {a : A} {o : O}
    (h : run step s labels = some (t, answers)) (last : step t a = some (u, o)) :
    moves step s (labels ++ [a]) = moves step s labels ++ [(t, a, u)] := by
  induction labels generalizing s answers with
  | nil =>
    cases h
    simp [moves, last]
  | cons b rest ih =>
    obtain ⟨m, o, tail, first, later, rfl⟩ := run_cons.mp h
    simp [moves, first, ih later]

theorem moves_length_le (s : S) (labels : List A) :
    (moves step s labels).length ≤ labels.length := by
  induction labels generalizing s with
  | nil => exact Nat.le_refl 0
  | cons a rest ih =>
    rw [moves]
    split
    · exact Nat.succ_le_succ (ih _)
    · exact Nat.zero_le _

/-- A condition on the state and the label at every step of a run. -/
def Always (step : S → A → Option (S × O)) (Q : S → A → Prop) (s : S) : List A → Prop
  | [] => True
  | a :: rest => Q s a ∧ ∀ t o, step s a = some (t, o) → Always step Q t rest

theorem always_cons {Q : S → A → Prop} {s t : S} {a : A} {o : O} {rest : List A}
    (first : step s a = some (t, o)) :
    Always step Q s (a :: rest) ↔ Q s a ∧ Always step Q t rest := by
  simp [Always, first]

theorem always_append {Q : S → A → Prop} {s t : S} {labels more : List A} {answers : List O}
    (h : run step s labels = some (t, answers)) :
    Always step Q s (labels ++ more) ↔ Always step Q s labels ∧ Always step Q t more := by
  induction labels generalizing s answers with
  | nil =>
    cases h
    simp [Always]
  | cons b rest ih =>
    obtain ⟨m, o, tail, first, later, rfl⟩ := run_cons.mp h
    rw [List.cons_append, always_cons first, always_cons first, ih later, and_assoc]

theorem always_concat {Q : S → A → Prop} {s t : S} {labels : List A} {answers : List O} {a : A}
    (h : run step s labels = some (t, answers)) :
    Always step Q s (labels ++ [a]) ↔ Always step Q s labels ∧ Q t a := by
  rw [always_append h]
  simp [Always]

/-- A condition on the labels alone. -/
theorem always_labels {q : A → Prop} {s t : S} {labels : List A} {answers : List O}
    (h : run step s labels = some (t, answers)) (always : Always step (fun _ a => q a) s labels) :
    ∀ a ∈ labels, q a := by
  induction labels generalizing s answers with
  | nil => exact fun a absent => absurd absent List.not_mem_nil
  | cons b rest ih =>
    obtain ⟨m, o, tail, first, later, rfl⟩ := run_cons.mp h
    obtain ⟨now, after⟩ := (always_cons first).mp always
    intro a member
    rcases List.mem_cons.mp member with rfl | member
    · exact now
    · exact ih later after a member

/-- Where every state that has not arrived can come closer, every state can arrive, in
no more steps than its distance. -/
theorem run_reaches {P : List O → S → Prop} {Q : S → A → Prop} {arrived : S → Prop}
    (distance : S → Nat)
    (closer : ∀ answers t, P answers t → ¬ arrived t → ∃ a u o, Q t a ∧ step t a = some (u, o) ∧
      P (answers ++ [o]) u ∧ distance u < distance t)
    {s : S} {told : List O} (here : P told s) :
    ∃ labels t answers, run step s labels = some (t, answers) ∧ P (told ++ answers) t ∧
      arrived t ∧ Always step Q s labels ∧ labels.length ≤ distance s := by
  generalize size : distance s = n
  induction n using Nat.strongRecOn generalizing s told with
  | ind n ih =>
    by_cases done : arrived s
    · exact ⟨[], s, [], rfl, by simpa using here, done, trivial, Nat.zero_le n⟩
    · obtain ⟨a, u, o, allowed, moved, there, less⟩ := closer told s here done
      obtain ⟨labels, t, answers, later, last, reached, always, short⟩ :=
        ih (distance u) (size ▸ less) there rfl
      refine ⟨a :: labels, t, o :: answers, ?_, by simpa using last, reached, ?_, ?_⟩
      · exact run_cons.mpr ⟨u, o, answers, moved, later, rfl⟩
      · exact (always_cons moved).mpr ⟨allowed, always⟩
      · rw [List.length_cons]
        omega

/-- Where every step comes closer, apart from the costly ones, the distance bounds the
length of a run. -/
theorem run_length {P : List O → S → Prop} {Q : S → A → Prop} (distance : S → Nat)
    (costly : A → Bool) (price : Nat)
    (closer : ∀ answers t a u o, P answers t → Q t a → step t a = some (u, o) →
      P (answers ++ [o]) u ∧ distance u + 1 ≤ distance t + price * (costly a).toNat)
    {s t : S} (told : List O) {answers : List O} {labels : List A} (here : P told s)
    (allowed : Always step Q s labels) (h : run step s labels = some (t, answers)) :
    P (told ++ answers) t ∧
      labels.length + distance t ≤ distance s + price * labels.countP costly := by
  induction labels generalizing s told answers with
  | nil =>
    cases h
    simpa using here
  | cons a rest ih =>
    obtain ⟨m, o, tail, first, later, rfl⟩ := run_cons.mp h
    obtain ⟨now, always⟩ := (always_cons first).mp allowed
    obtain ⟨there, less⟩ := closer told s a m o here now first
    obtain ⟨last, bound⟩ := ih (told ++ [o]) there always later
    refine ⟨by simpa using last, ?_⟩
    have count : (a :: rest).countP costly = rest.countP costly + (costly a).toNat := by
      rw [List.countP_cons]
      cases costly a <;> rfl
    rw [List.length_cons, count, Nat.mul_add]
    omega

instance decidableAlways {Q : S → A → Prop} [∀ s a, Decidable (Q s a)] :
    ∀ (s : S) (labels : List A), Decidable (Always step Q s labels)
  | _, [] => .isTrue trivial
  | s, a :: rest =>
    match enabled : step s a with
    | none => decidable_of_iff (Q s a) (by simp [Always, enabled])
    | some (t, _) =>
      have : Decidable (Always step Q t rest) := decidableAlways t rest
      decidable_of_iff (Q s a ∧ Always step Q t rest) (always_cons enabled).symm

end Run

/-- A forward simulation with equal answers carries whole runs across. -/
theorem simulation {stepS : S → A → Option (S × O)} (stepT : T → A → Option (T × O))
    {R : S → T → Prop}
    (related : ∀ s t a s' o, R s t → stepS s a = some (s', o) →
      ∃ t', stepT t a = some (t', o) ∧ R s' t')
    {s s' : S} {t : T} (start : R s t) {labels : List A} {answers : List O}
    (h : run stepS s labels = some (s', answers)) :
    ∃ t', run stepT t labels = some (t', answers) ∧ R s' t' := by
  induction labels generalizing s t answers with
  | nil =>
    cases h
    exact ⟨t, rfl, start⟩
  | cons a rest ih =>
    obtain ⟨m, o, tail, first, later, rfl⟩ := run_cons.mp h
    obtain ⟨m', first', again⟩ := related s t a m o start first
    obtain ⟨t', later', last⟩ := ih again later
    exact ⟨t', run_cons.mpr ⟨m', o, tail, first', later', rfl⟩, last⟩

end Exec
