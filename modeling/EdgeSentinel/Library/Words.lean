import Mathlib.Data.List.DropRight

/-! The words of a text: its maximal stretches without a separator. Scanners
that skip separators and then cut a word off the front compute them. -/
namespace List

variable {α : Type*} (p : α → Bool)

/-- The nonempty pieces between separators. -/
def words (l : List α) : List (List α) := (l.splitOnP p).filter fun piece => !piece.isEmpty

@[simp] theorem words_nil : words p [] = [] := by
  simp [words]

theorem words_separator {a : α} (separator : p a = true) (l : List α) :
    words p (a :: l) = words p l := by
  simp [words, splitOnP_cons_eq_if_modifyHead, separator]

theorem words_snoc_separator {a : α} (separator : p a = true) (l : List α) :
    words p (l ++ [a]) = words p l := by
  simp [words, splitOnP_append_cons l [] separator]

/-- Skipping separators loses no word. -/
theorem words_dropWhile (l : List α) : words p (l.dropWhile p) = words p l := by
  induction l with
  | nil => rfl
  | cons a rest ih =>
    cases separator : p a with
    | true => rw [dropWhile_cons_of_pos separator, ih, words_separator p separator]
    | false => rw [dropWhile_cons_of_neg (by simp [separator])]

theorem words_rdropWhile (l : List α) : words p (l.rdropWhile p) = words p l := by
  induction l using List.reverseRecOn with
  | nil => rfl
  | append_singleton rest a ih =>
    cases separator : p a with
    | true => rw [rdropWhile_concat_pos _ _ _ separator, ih, words_snoc_separator p separator]
    | false => rw [rdropWhile_concat_neg _ _ _ (by simp [separator])]

theorem drop_takeWhile_length (l : List α) :
    l.drop (l.takeWhile p).length = l.dropWhile p := by
  induction l with
  | nil => rfl
  | cons a rest ih =>
    rw [takeWhile_cons, dropWhile_cons]
    split
    · exact ih
    · rfl

/-- A text that does not start with a separator starts with a word. -/
theorem words_word {a : α} (letter : p a = false) (l : List α) :
    words p (a :: l) = (a :: l).takeWhile (fun b => !p b) ::
      words p ((a :: l).dropWhile fun b => !p b) := by
  have clean : ∀ b ∈ (a :: l).takeWhile (fun b => !p b), p b = false := by
    intro b inside
    simpa using mem_takeWhile_imp inside
  have nonempty : ((a :: l).takeWhile fun b => !p b) ≠ [] := by
    simp [letter]
  have parts := takeWhile_append_dropWhile (p := fun b => !p b) (l := a :: l)
  conv_lhs => rw [← parts]
  cases tail : (a :: l).dropWhile fun b => !p b with
  | nil => simp [words, splitOnP_eq_singleton clean, nonempty]
  | cons b rest =>
    have stopped := head?_dropWhile_not (fun b => !p b) (a :: l)
    have separator : p b = true := by simpa [tail] using stopped
    simp [words, splitOnP_append_cons_of_forall_mem clean b separator,
      splitOnP_cons_eq_if_modifyHead, separator, nonempty]

theorem words_eq_nil {l : List α} : words p l = [] ↔ ∀ a ∈ l, p a = true := by
  induction l with
  | nil => simp
  | cons a rest ih =>
    cases separator : p a with
    | true => simp [words_separator p separator, ih, separator]
    | false => simp [words_word p separator, separator]

end List
