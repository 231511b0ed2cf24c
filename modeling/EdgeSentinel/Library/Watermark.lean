import Mathlib.Data.List.Infix

/-! The highest level over a whole history. A level is a number that the inputs so far
determine; the watermark is the largest one that some prefix of the history reached. -/
namespace Watermark

variable {A : Type*}

/-- `mark` is the maximum of `level` over the prefixes of the history. -/
structure Peak (level : List A → Nat) (history : List A) (mark : Nat) : Prop where
  reached : ∃ past, past <+: history ∧ level past = mark
  above : ∀ past, past <+: history → level past ≤ mark

section Peak

variable {level : List A → Nat} {history : List A} {mark : Nat}

theorem peak_nil (level : List A → Nat) : Peak level [] (level []) where
  reached := ⟨[], List.prefix_refl _, rfl⟩
  above past inside := by rw [List.prefix_nil.mp inside]

/-- One more input that does not rise above the mark. -/
theorem Peak.keep (h : Peak level history mark) {a : A} (low : level (history ++ [a]) ≤ mark) :
    Peak level (history ++ [a]) mark where
  reached := by
    obtain ⟨past, inside, same⟩ := h.reached
    exact ⟨past, inside.trans (List.prefix_append _ _), same⟩
  above past inside := by
    rcases List.prefix_concat_iff.mp inside with rfl | earlier
    · exact low
    · exact h.above past earlier

/-- One more input, with the mark raised to it if need be. -/
theorem Peak.raise (h : Peak level history mark) (a : A) {now : Nat}
    (here : level (history ++ [a]) = now) :
    Peak level (history ++ [a]) (if now > mark then now else mark) := by
  split
  · rename_i higher
    refine ⟨⟨_, List.prefix_refl _, here⟩, ?_⟩
    intro past inside
    rcases List.prefix_concat_iff.mp inside with rfl | earlier
    · exact here.le
    · exact (h.above past earlier).trans higher.le
  · rename_i lower
    exact h.keep (by omega)

end Peak

end Watermark
