import Mathlib.Data.List.Nodup

/-! Singly linked lists threaded through an index space. `next` is total, so a
broken link is representable; `Visits` says that following it does end. -/
namespace Links

/-- Following `next` from an index visits exactly the listed indices, in order,
and then ends at `stop`. -/
inductive Visits (next : Nat → Nat) (stop : Nat) : Nat → List Nat → Prop where
  | done : Visits next stop stop []
  | hop {i : Nat} {path : List Nat} :
      i ≠ stop → Visits next stop (next i) path → Visits next stop i (i :: path)

section Visits

variable {next : Nat → Nat} {stop i : Nat} {path other : List Nat}

theorem Visits.unique (h : Visits next stop i path) (k : Visits next stop i other) :
    path = other := by
  induction h generalizing other with
  | done =>
    cases k with
    | done => rfl
    | hop ne _ => exact absurd rfl ne
  | hop ne _ ih =>
    cases k with
    | done => exact absurd rfl ne
    | hop _ rest => rw [ih rest]

theorem Visits.from_member (h : Visits next stop i path) {j : Nat} (member : j ∈ path) :
    ∃ rest, Visits next stop j (j :: rest) ∧ (j :: rest).length ≤ path.length := by
  induction h with
  | done => cases member
  | @hop i path ne tail ih =>
    rcases List.mem_cons.mp member with here | later
    · subst here
      exact ⟨path, .hop ne tail, Nat.le_refl _⟩
    · obtain ⟨rest, visits, short⟩ := ih later
      exact ⟨rest, visits, Nat.le_succ_of_le short⟩

/-- A walk that ends never meets an index twice. -/
theorem Visits.nodup (h : Visits next stop i path) : path.Nodup := by
  induction h with
  | done => exact List.nodup_nil
  | @hop i path ne tail ih =>
    refine List.nodup_cons.mpr ⟨?_, ih⟩
    intro again
    obtain ⟨rest, visits, short⟩ := tail.from_member again
    have same := visits.unique (.hop ne tail)
    rw [same, List.length_cons] at short
    omega

theorem Visits.congr {next' : Nat → Nat} (h : Visits next stop i path)
    (agree : ∀ j ∈ path, next' j = next j) : Visits next' stop i path := by
  induction h with
  | done => exact .done
  | @hop i path ne _ ih =>
    refine .hop ne ?_
    rw [agree i List.mem_cons_self]
    exact ih (fun j member => agree j (List.mem_cons_of_mem _ member))

/-- The walk from an index other than the end starts there. -/
theorem Visits.uncons (h : Visits next stop i path) (ne : i ≠ stop) :
    ∃ rest, path = i :: rest ∧ Visits next stop (next i) rest := by
  cases h with
  | done => exact absurd rfl ne
  | hop _ tail => exact ⟨_, rfl, tail⟩

theorem Visits.from_stop (h : Visits next stop stop path) : path = [] :=
  h.unique .done

end Visits

end Links
